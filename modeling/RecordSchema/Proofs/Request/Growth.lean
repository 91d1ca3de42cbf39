import RecordSchema.Proofs.Request.Columns
import RecordSchema.Proofs.Request.Named
import RecordSchema.Proofs.Request.Nested
import RecordSchema.Proofs.Store.Linked

/-!
# How lists grow

A write adds the records that its data ask to create and no others, and
takes none away. `Work.Adds` says of work that it leaves all records in
their order, however it ends, and that it has added just one record to
each of certain lists when it succeeds. Every single write does so, work
that goes on adds what its parts add, and nested creations do so by
induction on their depth, which `Schema.below` follows down the data.
-/

namespace RecordSchema

/-! ## Work that adds records -/

/-- Whether work leaves all records in their order, however it ends, and has added one to each of
the lists when it succeeds. -/
def Work.Adds {α : Type} (x : Work α) (lists : List String) : Prop :=
  ∀ s, (∀ list, s.store.ids list <+: (x.outcome s).2.store.ids list) ∧
    ∀ a s', x.Yields s a s' → ∀ list,
      (s'.store.rows list).length = (s.store.rows list).length + lists.count list

namespace Work

variable {α β : Type} {x : Work α} {f : α → Work β} {lists later : List String}

theorem adds_of_ids_eq (h : ∀ s list, (x.outcome s).2.store.ids list = s.store.ids list) :
    x.Adds [] := by
  intro s
  refine ⟨fun list => h s list ▸ List.prefix_refl _, fun a s' hx list => ?_⟩
  have hids := congrArg List.length (h s list)
  rw [hx] at hids
  simpa only [Store.ids, List.length_map, List.count_nil, Nat.add_zero] using hids

theorem Reads.adds (hx : x.Reads) : x.Adds [] :=
  adds_of_ids_eq fun s _ => by rw [hx s]

/-- Work that never succeeds may be said to add anything. -/
theorem Adds.of_not_yields (hx : x.Adds lists) (hnever : ∀ s a s', ¬ x.Yields s a s') :
    x.Adds later :=
  fun s => ⟨(hx s).1, fun a s' h => absurd h (hnever s a s')⟩

/-- Work that goes on adds what both parts add. -/
theorem Adds.bind (hx : x.Adds lists) (hf : ∀ a s m, x.Yields s a m → (f a).Adds later) :
    (x >>= f).Adds (lists ++ later) := by
  intro s
  obtain ⟨hgrown, hcount⟩ := hx s
  constructor
  · intro list
    have hlist := hgrown list
    rw [outcome_bind]
    rcases ho : x.outcome s with ⟨r, m⟩
    rw [ho] at hlist
    cases r with
    | ok a => exact hlist.trans ((hf a s m ho m).1 list)
    | error e => exact hlist
  · intro b s' h list
    obtain ⟨a, m, ha, hb⟩ := bind_yields.1 h
    rw [(hf a s m ha m).2 b s' hb list, hcount a m ha list, List.count_append, Nat.add_assoc]

/-- After work that only reads, all that is added is added later. -/
theorem Reads.bind_adds (hx : x.Reads) (hf : ∀ a s, x.Yields s a s → (f a).Adds later) :
    (x >>= f).Adds later := by
  refine hx.adds.bind fun a s m ha => ?_
  obtain rfl := hx.eq ha
  exact hf a s ha

/-- Work that adds nothing may follow. -/
theorem Adds.bind_nil (hx : x.Adds lists) (hf : ∀ a, (f a).Adds []) : (x >>= f).Adds lists := by
  simpa only [List.append_nil] using hx.bind fun a _ _ _ => hf a

theorem generate_adds (g : Generated α) : (generate g).Adds [] :=
  reads_get.bind_adds fun _ _ _ => (reads_ofExcept _).bind_adds fun _ _ _ =>
    adds_of_ids_eq fun _ _ => rfl

end Work

namespace Worker

variable {w : Worker} {d : Declarations} {list field : String} {id : Int}
  {create : String → Value → Work Int}

/-! ## Links -/

theorem relink_adds {f : Store → RelationPlan → Store}
    (hf : ∀ s p list, (f s p).ids list = s.ids list) : (w.relink list field f).Adds [] := by
  refine (Work.reads_ofExcept _).bind_adds fun p _ _ => ?_
  exact Work.adds_of_ids_eq fun s other => hf s.store p other

theorem connect_adds (list field : String) (id : Int) (ts : List Int) :
    (w.connect list field id ts).Adds [] :=
  relink_adds fun s p other => s.ids_connect p id ts other

theorem disconnect_adds (list field : String) (id : Int) (ts : Option (List Int)) :
    (w.relink list field fun s p => s.disconnect p id ts).Adds [] :=
  relink_adds fun s p other => s.ids_disconnect p id ts other

theorem setRelated_adds (list field : String) (id : Int) (ts : List Int) :
    (w.relink list field fun s p => s.setRelated p id ts).Adds [] :=
  relink_adds fun s p other => s.ids_setRelated p id ts other

/-- Whether creating a record adds the records that its data ask for. -/
def Grows (w : Worker) (create : String → Value → Work Int) : Prop :=
  ∀ list data, (create list data).Adds (w.db.schema.creates list data)

theorem Grows.all (hcreate : w.Grows create) (list : String) (items : List Value) :
    (createAll create list items).Adds (items.flatMap (w.db.schema.creates list)) := by
  induction items with
  | nil => exact (Work.reads_pure _).adds
  | cons v r ih =>
    rw [List.flatMap_cons]
    exact (hcreate list v).bind fun _ _ _ _ => ih.bind_nil fun _ => (Work.reads_pure _).adds

theorem applyOne_adds (hcreate : w.Grows create) (list field target : String) (id : Int)
    (a : OneAction) : (w.applyOne create list field target id a).Adds
      ((Resolve.LinkAction.one a).newItems.flatMap (w.db.schema.creates target)) := by
  obtain ⟨verb, value⟩ := a
  cases verb with
  | disconnect => exact disconnect_adds list field id none
  | connect =>
    exact (w.require_reads target value).bind_adds fun t _ _ => connect_adds list field id [t]
  | create =>
    have hitem : (Resolve.LinkAction.one ⟨.create, value⟩).newItems = [value] := rfl
    rw [hitem, List.flatMap_singleton]
    exact (hcreate target value).bind_nil fun t => connect_adds list field id [t]

/-- The new records of one step of a plan. -/
def stepItems (step : ManyVerb × List Value) : List Value :=
  if step.1 = .create then step.2 else []

theorem applyStep_adds (hcreate : w.Grows create) (list field target : String) (id : Int)
    (verb : ManyVerb) (items : List Value) :
    (w.applyStep create list field target id verb items).Adds
      ((stepItems (verb, items)).flatMap (w.db.schema.creates target)) := by
  cases verb with
  | set =>
    exact (w.requireAll_reads target items).bind_adds fun ts _ _ => setRelated_adds list field id ts
  | disconnect =>
    refine (w.findAll_reads target items).bind_adds fun ts _ _ => ?_
    split
    · exact disconnect_adds list field id (some ts)
    · exact (Work.reads_pure ()).adds
  | connect =>
    exact (w.requireAll_reads target items).bind_adds fun ts _ _ => connect_adds list field id ts
  | create => exact (hcreate.all target items).bind_nil fun ts => connect_adds list field id ts

theorem applySteps_adds (hcreate : w.Grows create) (list field target : String) (id : Int)
    (steps : List (ManyVerb × List Value)) :
    (w.applySteps create list field target id steps).Adds
      ((steps.flatMap stepItems).flatMap (w.db.schema.creates target)) := by
  induction steps with
  | nil => exact (Work.reads_pure ()).adds
  | cons step r ih =>
    rw [List.flatMap_cons, List.flatMap_append]
    exact (applyStep_adds hcreate list field target id step.1 step.2).bind fun _ _ _ _ => ih

/-- Of the steps of a plan only the creation of records has new records. -/
theorem flatMap_stepItems (p : ManyPlan) : p.steps.flatMap stepItems = p.create := by
  obtain ⟨set, disconnect, connect, create⟩ := p
  cases set <;> cases disconnect <;> cases connect <;> cases create <;>
    first | rfl | exact List.append_nil _

/-- The target of a relation, as it is planned. -/
def target (w : Worker) (list field : String) : String :=
  (w.db.plan list field).toOption.elim "" (·.target)

theorem applyLinks_adds (hcreate : w.Grows create) (list : String) (id : Int)
    (links : List (String × Resolve.LinkAction)) :
    (w.applyLinks create list id links).Adds
      (links.flatMap fun e => e.2.newItems.flatMap (w.db.schema.creates (w.target list e.1))) := by
  induction links with
  | nil => exact (Work.reads_pure ()).adds
  | cons e r ih =>
    obtain ⟨field, action⟩ := e
    refine (Work.reads_ofExcept _).bind_adds fun p _ hp => ?_
    have htarget : w.target list field = p.target := by
      rw [target, (Work.ofExcept_yields.1 hp).1]
      rfl
    rw [List.flatMap_cons]
    dsimp only
    rw [htarget]
    cases action with
    | one a => exact (applyOne_adds hcreate list field p.target id a).bind fun _ _ _ _ => ih
    | many plan =>
      have hsteps := applySteps_adds hcreate list field p.target id plan.steps
      rw [flatMap_stepItems] at hsteps
      exact hsteps.bind fun _ _ _ _ => ih

/-! ## Columns -/

theorem insert_adds (hd : w.db.Compiles d) {l : ListType} (hl : l ∈ w.db.schema.lists)
    (values : Value.Entries) : (w.insert l.key values).Adds [l.key] := by
  intro s
  constructor
  · intro list
    simp only [insert, Work.outcome_bind, Work.outcome_get, Work.outcome_ofExcept]
    cases hi : w.db.insert s.store s.supply.now.1 l.key values with
    | error e => exact List.prefix_refl _
    | ok r =>
      obtain ⟨row, store⟩ := r
      obtain ⟨rfl, -⟩ := hd.insert_ok hl hi
      change s.store.ids list <+: (s.store.setRows l.key (s.store.rows l.key ++ [row])).ids list
      rw [Store.ids_setRows]
      split
      · next heq =>
        rw [heq, List.map_append]
        exact List.prefix_append _ _
      · exact List.prefix_refl _
  · intro row s' h list
    obtain ⟨store, hinsert, rfl⟩ := insert_yields h
    obtain ⟨rfl, -⟩ := hd.insert_ok hl hinsert
    rw [Store.rows_setRows]
    split
    · next heq =>
      rw [heq, List.length_append, List.count_singleton_self]
      rfl
    · next hne => rw [List.count_singleton, if_neg (by simpa using Ne.symm hne), Nat.add_zero]

theorem insertColumns_adds (hd : w.db.Compiles d) (list : String) (data : Value) :
    (w.insertColumns list data).Adds [list] := by
  refine (Work.reads_ofExcept _).bind_adds fun l _ hl => ?_
  obtain ⟨hmem, rfl⟩ := Schema.mem_of_list? (listOf_yields.1 hl).1
  refine (Work.reads_ofExcept _).bind_adds fun c _ _ => ?_
  have hrest := fun values : Value.Entries =>
    (insert_adds hd hmem values).bind_nil fun row => (Work.reads_pure (row, c.links)).adds
  exact (Work.generate_adds _).bind fun values _ _ _ => hrest values

theorem change_adds (hd : w.db.Compiles d) {l : ListType} (hl : l ∈ w.db.schema.lists) (id : Int)
    {values : Value.Entries} (hid : .text "id" ∉ values.map Prod.fst) :
    (w.change l.key id values).Adds [] := by
  refine Work.adds_of_ids_eq fun s list => ?_
  simp only [change, Work.outcome_bind, Work.outcome_store, Work.outcome_ofExcept]
  cases hu : w.db.update s.store l.key id values with
  | error e => rfl
  | ok store =>
    have hids : store.ids list = s.store.ids list := by
      obtain ⟨-, rfl⟩ | ⟨r, cells, hr, -, rfl⟩ := hd.update_ok hl hid hu
      · rfl
      · refine Store.ids_modifyRows _ _ _ fun o _ ho => ?_
        rw [Row.setAll_id, (Store.row?_mem hr).2, eq_of_beq ho]
    simp only [Work.outcome_setStore]
    split
    · exact hids
    · exact hids

theorem changeColumns_adds (hd : w.db.Compiles d) (hb : d.UsesBuiltIns) (list : String) (id : Int)
    (data : Value) : (w.changeColumns list id data).Adds [] := by
  refine (Work.reads_ofExcept _).bind_adds fun l _ hl => ?_
  obtain ⟨hmem, rfl⟩ := Schema.mem_of_list? (listOf_yields.1 hl).1
  refine (Work.reads_ofExcept _).bind_adds fun c _ hc => ?_
  refine (Work.generate_adds _).bind fun values s m hvalues => ?_
  obtain ⟨supply, hstamp, -⟩ := Work.generate_yields hvalues
  have hkeys := hd.update_keys hb hmem (Work.ofExcept_yields.1 hc).1 hstamp
  split
  · exact (change_adds hd hmem id hkeys).bind_nil fun _ => (Work.reads_pure _).adds
  · exact (Work.reads_pure _).adds

/-! ## What data ask for -/

theorem target_eq (hd : w.db.Compiles d) {l : ListType} (hl : l ∈ w.db.schema.lists)
    {e : String × RelationField} (he : e ∈ l.relations) : w.target l.key e.1 = e.2.list := by
  obtain ⟨⟨key, f⟩, hf, hrelation⟩ := List.mem_filterMap.1 he
  obtain ⟨r, hr, rfl⟩ := Option.map_eq_some_iff.1 hrelation
  have hstorage : f.storage = .relation r := by
    unfold Field.relation? at hr
    split at hr <;> cases hr
    assumption
  obtain ⟨p, hp, hlist, rfl⟩ := hd.exists_plan hl hf hstorage
  obtain ⟨f', r', hf', hr', htarget, -⟩ := hd.exists_relation hp hl hlist
  obtain rfl := Option.some.inj ((hd.field?_eq hl hf).symm.trans (hd.field?_eq hl hf'))
  obtain rfl := Storage.relation.inj (hstorage.symm.trans hr')
  have hplan : w.db.plan l.key p.field = .ok p := by
    rw [Database.plan, ← hlist, hd.plan?_eq hp]
  rw [target, hplan]
  exact htarget

/-- The links of a write add the records that its data ask for. -/
theorem flatMap_links (hd : w.db.Compiles d) (hb : d.UsesBuiltIns) {l : ListType}
    (hl : l ∈ w.db.schema.lists) {op : Operation} (hop : op = .create ∨ op = .update)
    {data : Value} {c : Resolve.Changes}
    (hc : Resolve.changes l op w.setPolicy w.context data = .ok c) :
    (c.links.flatMap fun e => e.2.newItems.flatMap (w.db.schema.creates (w.target l.key e.1))) =
      w.db.schema.below l.key data := by
  obtain ⟨vs, hvs, -⟩ := Except.bind_eq_ok.1 hc
  obtain ⟨es, rfl, -⟩ := Resolve.data_ok hvs
  have hitems := hd.changes_newItems hb hl hop hc fun key =>
    w.db.schema.creates (w.target l.key key)
  simp only [Schema.flatMap_creates_filter] at hitems
  rw [hitems, Schema.below_map, Schema.relationsOf, hd.list?_eq hl]
  exact List.flatMap_congr fun e he => by rw [target_eq hd hl he]

/-! ## Writes -/

/-- Nothing is created from null or from no data. -/
theorem isPresent_of_createWithin {depth : Nat} {data : Value} {s s' : Session}
    (h : (w.createWithin depth list data).Yields s id s') : data.isPresent = true := by
  cases depth with
  | zero => exact absurd h Work.not_throw_yields
  | succ depth =>
    obtain ⟨⟨row, links⟩, m, hcolumns, -⟩ := Work.bind_yields.1 h
    obtain ⟨l, -, -, c, hc, -⟩ := insertColumns_inserts hcolumns
    obtain ⟨vs, hvs, -⟩ := Except.bind_eq_ok.1 hc
    obtain ⟨es, rfl, -⟩ := Resolve.data_ok hvs
    rfl

theorem grows_of_adds {depth : Nat} (h : ∀ list data,
    (w.createWithin depth list data).Adds (list :: w.db.schema.below list data)) :
    w.Grows (w.createWithin depth) := by
  intro list data
  by_cases hdata : data.isPresent
  · rw [Schema.creates, if_pos hdata]
    exact h list data
  · exact (h list data).of_not_yields fun s id s' hyields =>
      hdata (isPresent_of_createWithin hyields)

/-- Creating a record at any depth of nesting adds it and the records that its data ask for. -/
theorem createWithin_adds (hd : w.db.Compiles d) (hb : d.UsesBuiltIns) (depth : Nat) (list : String)
    (data : Value) :
    (w.createWithin depth list data).Adds (list :: w.db.schema.below list data) := by
  induction depth generalizing list data with
  | zero =>
    exact (Work.reads_throw _).adds.of_not_yields fun _ _ _ => Work.not_throw_yields
  | succ depth ih =>
    refine (insertColumns_adds hd list data).bind fun ⟨row, links⟩ s m h => ?_
    obtain ⟨l, hl, rfl, c, hc, rfl, -⟩ := insertColumns_inserts h
    have hlinks := applyLinks_adds (grows_of_adds ih) l.key row.id c.links
    rw [flatMap_links hd hb hl (.inl rfl) hc] at hlinks
    exact hlinks.bind_nil fun _ => (Work.reads_pure _).adds

theorem create_adds (hd : w.db.Compiles d) (hb : d.UsesBuiltIns) (list : String) (data : Value) :
    (w.create list data).Adds (list :: w.db.schema.below list data) :=
  (createWithin_adds hd hb w.db.depth list data).bind_nil fun id => (w.recordOf_reads list id).adds

theorem update_adds (hd : w.db.Compiles d) (hb : d.UsesBuiltIns) (list : String)
    (filter data : Value) : (w.update list filter data).Adds (w.db.schema.below list data) := by
  refine (w.require_reads list filter).bind_adds fun id _ _ => ?_
  refine (w.recordOf_reads list id).bind_adds fun before _ _ => ?_
  refine (changeColumns_adds hd hb list id data).bind fun links s m h => ?_
  obtain ⟨l, hl, rfl, c, hc, rfl, -⟩ := changeColumns_changes h
  have hlinks := applyLinks_adds (grows_of_adds (createWithin_adds hd hb w.db.depth)) l.key id
    c.links
  rw [flatMap_links hd hb hl (.inr rfl) hc] at hlinks
  refine hlinks.bind_nil fun _ => Work.reads_store.bind_adds fun t _ _ => ?_
  split
  · exact (Work.reads_pure _).adds
  · exact (Work.reads_pure _).adds

end Worker

/-- A creation that succeeds adds one record for the data themselves and one for each item for a
new record in them, at any depth, and an update adds the latter only: each to its own list. No
write takes a record away, even when it fails. -/
theorem Database.Compiles.writes_grow {w : Worker} {d : Declarations} (hd : w.db.Compiles d)
    (hb : d.UsesBuiltIns) (list : String) (s : Session) :
    (∀ data record s', (w.create list data).Yields s record s' → ∀ other,
      (s'.store.rows other).length =
        (s.store.rows other).length + (list :: w.db.schema.below list data).count other) ∧
    (∀ filter data record s', (w.update list filter data).Yields s record s' → ∀ other,
      (s'.store.rows other).length =
        (s.store.rows other).length + (w.db.schema.below list data).count other) ∧
    (∀ data other,
      s.store.ids other <+: ((w.create list data).outcome s).2.store.ids other) ∧
    (∀ filter data other,
      s.store.ids other <+: ((w.update list filter data).outcome s).2.store.ids other) := by
  have hcreate (data : Value) := Worker.create_adds hd hb list data s
  have hupdate (filter data : Value) := Worker.update_adds hd hb list filter data s
  exact ⟨fun data => (hcreate data).2, fun filter data => (hupdate filter data).2,
    fun data => (hcreate data).1, fun filter data => (hupdate filter data).1⟩

/-! ## Folders and notes -/

/-- Folders in folders, with notes. -/
def folders : Declarations :=
  (({} : Declarations).declare {
    key := "Folder"
    specs := [("name", .scalar .text {}), ("parent", .relationship { ref := "Folder" }),
      ("notes", .relationship { ref := "Note", many := true })] }).declare {
    key := "Note"
    specs := [("text", .scalar .text {})] }

theorem folders_usesBuiltIns : folders.UsesBuiltIns := by
  have hstart : ({} : Declarations).UsesBuiltIns := nofun
  refine (hstart.declare ?folder).declare (List.forall_mem_singleton.2 (.scalar .text _))
  case folder =>
    refine List.forall_mem_cons.2 ⟨.scalar .text _, List.forall_mem_cons.2 ⟨.relationship _, ?_⟩⟩
    exact List.forall_mem_singleton.2 (.relationship _)

def folderWorker : Worker where
  db := folders.database.result
  setPolicy := .reject

/-- A folder in a new folder that has no parent and two new notes. -/
def nestedFolder : Value := .map [
  (.text "name", .text "inner"),
  (.text "parent", .map [(.text "create", .map [
    (.text "parent", .map [(.text "create", .null)]),
    (.text "notes", .map [(.text "create", .list [.map [(.text "text", .text "n")], .map []])])])]),
  (.text "notes", .map [(.text "create", .list [])])]

/-- One more note in a folder. -/
def furtherNote : Value := .map [
  (.text "notes", .map [(.text "create", .list [.map [(.text "text", .text "m")]])])]

/-- What creating the folders ends with. -/
def foldersMade : Except Fault Record × Session :=
  (folderWorker.create "Folder" nestedFolder).outcome { supply := blogSupply }

/-- The facts about folders that are evaluated, in one go. -/
theorem folders_facts : folders.database.isOk = true ∧ foldersMade.1.isOk = true ∧
    folderWorker.db.schema.below "Folder" nestedFolder = ["Folder", "Note", "Note"] ∧
    folderWorker.db.schema.below "Folder" furtherNote = ["Note"] ∧
    ((folderWorker.update "Folder" (.map [(.text "id", .int 1)]) furtherNote).outcome
      foldersMade.2).1.isOk = true := by
  decide +kernel

theorem folders_compiles : folders.database.result.Compiles folders :=
  Declarations.Declared.compiles (.declare (.declare (.start _ _ _) (by decide)) (by decide))
    folders_facts.1

/-- The first write stores two folders and two notes, the second one note. -/
theorem writes_grow_folders : ∃ record s record' s',
    (folderWorker.create "Folder" nestedFolder).Yields { supply := blogSupply } record s ∧
      (s.store.rows "Folder").length = 2 ∧ (s.store.rows "Note").length = 2 ∧
      (folderWorker.update "Folder" (.map [(.text "id", .int 1)]) furtherNote).Yields s record' s' ∧
      (s'.store.rows "Folder").length = 2 ∧ (s'.store.rows "Note").length = 3 := by
  obtain ⟨-, hmade, hbelow, hnote, hupdated⟩ := folders_facts
  have hd := folders_compiles
  have hb := folders_usesBuiltIns
  obtain ⟨record, s, h⟩ := Work.exists_yields hmade
  have hsize := (hd.writes_grow (w := folderWorker) hb "Folder" _).1 nestedFolder record s h
  rw [show foldersMade.2 = s from congrArg Prod.snd h] at hupdated
  obtain ⟨record', s', h'⟩ := Work.exists_yields hupdated
  have hagain := (hd.writes_grow (w := folderWorker) hb "Folder" s).2.1 _ furtherNote record' s' h'
  rw [hbelow] at hsize
  rw [hnote] at hagain
  exact ⟨record, s, record', s', h, hsize "Folder", hsize "Note", h',
    (hagain "Folder").trans (congrArg (· + 0) (hsize "Folder")),
    (hagain "Note").trans (congrArg (· + 1) (hsize "Note"))⟩

end RecordSchema
