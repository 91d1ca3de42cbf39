import RecordSchema.Proofs.Request.Columns
import RecordSchema.Proofs.Request.Named
import RecordSchema.Proofs.Store.Sound

/-!
# Runs of requests

From a sound store, creating and updating records leads to a sound store
that has all the records there were, whether a call succeeds or ends
half way (`Work.Extends`). Every single write does so, work that goes on
does so when its parts do, and nested creations do so by induction on
their depth. So every run of calls from the empty store is sound.
-/

namespace RecordSchema

/-! ## Extending stores -/

/-- Whether a store is sound and has all records of another one. -/
structure Database.Extends (db : Database) (s s' : Store) : Prop where
  sound : db.Sound s'
  ids : ∀ list, s.ids list ⊆ s'.ids list

namespace Database.Extends

variable {db : Database} {s s' s'' : Store}

theorem refl (h : db.Sound s) : db.Extends s s :=
  ⟨h, fun _ => List.Subset.refl _⟩

theorem trans (h : db.Extends s s') (h' : db.Extends s' s'') : db.Extends s s'' :=
  ⟨h'.sound, fun list => List.Subset.trans (h.ids list) (h'.ids list)⟩

theorem of_ids_eq (h : db.Sound s') (hids : ∀ list, s'.ids list = s.ids list) : db.Extends s s' :=
  ⟨h, fun list => (hids list).symm ▸ List.Subset.refl _⟩

end Database.Extends

/-- Whether work leads to a sound store with all records there were, however it ends. -/
def Work.Extends {α : Type} (db : Database) (x : Work α) (s : Session) : Prop :=
  db.Extends s.store (x.outcome s).2.store

namespace Work

variable {α β : Type} {db : Database} {s m : Session} {x : Work α} {f : α → Work β}

theorem Extends.of_yields (h : x.Extends db s) {a : α} (hx : x.Yields s a m) :
    db.Extends s.store m.store := by
  unfold Extends at h
  rwa [hx] at h

theorem Reads.extends (hx : x.Reads) (hs : db.Sound s.store) : x.Extends db s := by
  unfold Extends
  rw [hx s]
  exact .refl hs

/-- Work that goes on extends the store when both parts do. -/
theorem Extends.bind (hx : x.Extends db s)
    (hf : ∀ a m, x.Yields s a m → db.Extends s.store m.store → (f a).Extends db m) :
    (x >>= f).Extends db s := by
  rcases ho : x.outcome s with ⟨r, m⟩
  unfold Extends
  rw [outcome_bind, ho]
  cases r with
  | ok a =>
    have hm := hx.of_yields ho
    exact hm.trans (hf a m ho hm)
  | error e =>
    unfold Extends at hx
    rwa [ho] at hx

/-- After work that only reads, the session is as before. -/
theorem Reads.bind_extends (hx : x.Reads) (hs : db.Sound s.store)
    (hf : ∀ a, x.Yields s a s → (f a).Extends db s) : (x >>= f).Extends db s := by
  refine (hx.extends hs).bind fun a m ha _ => ?_
  obtain rfl := hx.eq ha
  exact hf a ha

theorem setStore_extends {t : Store} (h : db.Extends s.store t) : (setStore t).Extends db s := h

theorem generate_extends (g : Generated α) (hs : db.Sound s.store) :
    (generate g).Extends db s := by
  refine reads_get.bind_extends hs fun r _ => ?_
  refine (reads_ofExcept _).bind_extends hs fun a _ => ?_
  exact .refl hs

end Work

namespace Worker

variable {w : Worker} {d : Declarations} {s : Session} {list field : String} {p : RelationPlan}
  {id : Int} {create : String → Value → Work Int}

/-! ## Writing links -/

theorem relink_extends (hs : w.db.Sound s.store) (hp : w.db.plan list field = .ok p)
    {f : Store → RelationPlan → Store} (hf : w.db.Extends s.store (f s.store p)) :
    (w.relink list field f).Extends w.db s := by
  refine (Work.reads_ofExcept _).bind_extends hs fun q hq => ?_
  obtain rfl := Except.ok.inj (hp.symm.trans (Work.ofExcept_yields.1 hq).1)
  refine Work.reads_store.bind_extends hs fun t ht => ?_
  obtain rfl := (Work.store_yields.1 ht).1
  exact Work.setStore_extends hf

theorem connect_extends (hd : w.db.Compiles d) (hapart : w.db.JoinsApart)
    (hs : w.db.Sound s.store) (hp : w.db.plan list field = .ok p) (hid : id ∈ s.store.ids list)
    {ts : List Int} (hts : ∀ t ∈ ts, t ∈ s.store.ids p.target) :
    (w.connect list field id ts).Extends w.db s := by
  obtain ⟨hmem, rfl, -⟩ := Database.plan_ok hp
  exact relink_extends hs hp
    (.of_ids_eq (hs.connect hd hapart hmem hid hts) (s.store.ids_connect p id ts))

theorem disconnect_extends (hd : w.db.Compiles d) (hs : w.db.Sound s.store)
    (hp : w.db.plan list field = .ok p) (id : Int) (ts : Option (List Int)) :
    (w.relink list field fun s p => s.disconnect p id ts).Extends w.db s := by
  obtain ⟨hmem, -⟩ := Database.plan_ok hp
  exact relink_extends hs hp
    (.of_ids_eq (hs.unlink hd hmem id _) (s.store.ids_disconnect p id ts))

theorem setRelated_extends (hd : w.db.Compiles d) (hapart : w.db.JoinsApart)
    (hs : w.db.Sound s.store) (hp : w.db.plan list field = .ok p) (hid : id ∈ s.store.ids list)
    {ts : List Int} (hts : ∀ t ∈ ts, t ∈ s.store.ids p.target) :
    (w.relink list field fun s p => s.setRelated p id ts).Extends w.db s := by
  obtain ⟨hmem, rfl, -⟩ := Database.plan_ok hp
  exact relink_extends hs hp
    (.of_ids_eq (hs.setRelated hd hapart hmem hid hts) (s.store.ids_setRelated p id ts))

theorem requireAll_mem {filters : List Value} {ids : List Int} {m : Session}
    (h : (w.requireAll list filters).Yields s ids m) : ∀ t ∈ ids, t ∈ s.store.ids list := by
  intro t ht
  obtain ⟨f, -, hf⟩ := (mem_requireAll h).1 ht
  exact hf.mem

/-! ## Creating on the way -/

/-- Whether creating a record extends sound stores and answers the id of a record. -/
def Creates (w : Worker) (create : String → Value → Work Int) : Prop :=
  ∀ list data s, w.db.Sound s.store → (create list data).Extends w.db s ∧
    ∀ id s', (create list data).Yields s id s' → id ∈ s'.store.ids list

theorem Creates.all (hcreate : w.Creates create) (items : List Value) {s : Session}
    (hs : w.db.Sound s.store) :
    (createAll create list items).Extends w.db s ∧
      ∀ ids s', (createAll create list items).Yields s ids s' →
        ∀ id ∈ ids, id ∈ s'.store.ids list := by
  induction items generalizing s with
  | nil =>
    refine ⟨(Work.reads_pure _).extends hs, fun ids s' h => ?_⟩
    obtain ⟨rfl, -⟩ := Work.pure_yields.1 h
    nofun
  | cons v r ih =>
    obtain ⟨hextends, hmem⟩ := hcreate list v s hs
    constructor
    · refine hextends.bind fun id m _ hm => ?_
      refine (ih hm.sound).1.bind fun ids m' _ hm' => ?_
      exact (Work.reads_pure _).extends hm'.sound
    · intro ids s' h
      simp only [createAll, Work.bind_yields, Work.pure_yields] at h
      obtain ⟨id, m, hid, rest, m', hrest, rfl, rfl⟩ := h
      obtain ⟨hlater, hmem'⟩ := ih (hextends.of_yields hid).sound
      refine List.forall_mem_cons.2 ⟨?_, hmem' rest m' hrest⟩
      exact (hlater.of_yields hrest).ids list (hmem id m hid)

/-! ## Actions on links -/

theorem applyOne_extends (hd : w.db.Compiles d) (hapart : w.db.JoinsApart)
    (hcreate : w.Creates create) (hs : w.db.Sound s.store) (hp : w.db.plan list field = .ok p)
    (hid : id ∈ s.store.ids list) (a : OneAction) :
    (w.applyOne create list field p.target id a).Extends w.db s := by
  unfold applyOne
  split
  · exact disconnect_extends hd hs hp id none
  · refine (w.require_reads p.target a.value).bind_extends hs fun t ht => ?_
    refine connect_extends hd hapart hs hp hid fun t' ht' => ?_
    rw [List.mem_singleton.1 ht']
    exact (require_yields.1 ht).1.mem
  · obtain ⟨hextends, hmem⟩ := hcreate p.target a.value s hs
    refine hextends.bind fun t m ht hm => ?_
    refine connect_extends hd hapart hm.sound hp (hm.ids list hid) fun t' ht' => ?_
    rw [List.mem_singleton.1 ht']
    exact hmem t m ht

theorem applyStep_extends (hd : w.db.Compiles d) (hapart : w.db.JoinsApart)
    (hcreate : w.Creates create) (hs : w.db.Sound s.store) (hp : w.db.plan list field = .ok p)
    (hid : id ∈ s.store.ids list) (verb : ManyVerb) (items : List Value) :
    (w.applyStep create list field p.target id verb items).Extends w.db s := by
  unfold applyStep
  split
  · refine (w.requireAll_reads p.target items).bind_extends hs fun ts hts => ?_
    exact setRelated_extends hd hapart hs hp hid (requireAll_mem hts)
  · refine (w.findAll_reads p.target items).bind_extends hs fun ts _ => ?_
    split
    · exact disconnect_extends hd hs hp id (some ts)
    · exact (Work.reads_pure ()).extends hs
  · refine (w.requireAll_reads p.target items).bind_extends hs fun ts hts => ?_
    exact connect_extends hd hapart hs hp hid (requireAll_mem hts)
  · obtain ⟨hextends, hmem⟩ := hcreate.all items hs
    refine hextends.bind fun ts m hts hm => ?_
    exact connect_extends hd hapart hm.sound hp (hm.ids list hid) (hmem ts m hts)

theorem applySteps_extends (hd : w.db.Compiles d) (hapart : w.db.JoinsApart)
    (hcreate : w.Creates create) (hp : w.db.plan list field = .ok p)
    (steps : List (ManyVerb × List Value)) {s : Session} (hs : w.db.Sound s.store)
    (hid : id ∈ s.store.ids list) :
    (w.applySteps create list field p.target id steps).Extends w.db s := by
  induction steps generalizing s with
  | nil => exact (Work.reads_pure ()).extends hs
  | cons step r ih =>
    refine (applyStep_extends hd hapart hcreate hs hp hid step.1 step.2).bind fun _ m _ hm => ?_
    exact ih hm.sound (hm.ids list hid)

theorem applyLinks_extends (hd : w.db.Compiles d) (hapart : w.db.JoinsApart)
    (hcreate : w.Creates create) (links : List (String × Resolve.LinkAction)) {s : Session}
    (hs : w.db.Sound s.store) (hid : id ∈ s.store.ids list) :
    (w.applyLinks create list id links).Extends w.db s := by
  induction links generalizing s with
  | nil => exact (Work.reads_pure ()).extends hs
  | cons e r ih =>
    obtain ⟨field, action⟩ := e
    refine (Work.reads_ofExcept _).bind_extends hs fun p hp => ?_
    have hp := (Work.ofExcept_yields.1 hp).1
    have hrest (m : Session) (hm : w.db.Extends s.store m.store) :
        (w.applyLinks create list id r).Extends w.db m :=
      ih hm.sound (hm.ids list hid)
    cases action with
    | one a =>
      exact (applyOne_extends hd hapart hcreate hs hp hid a).bind fun _ m _ hm => hrest m hm
    | many plan =>
      exact (applySteps_extends hd hapart hcreate hp plan.steps hs hid).bind
        fun _ m _ hm => hrest m hm

/-! ## Writing columns -/

theorem listOf_reads (w : Worker) (list : String) : (w.listOf list).Reads :=
  Work.reads_ofExcept _

theorem insert_extends (hd : w.db.Compiles d) (hs : w.db.Sound s.store) {l : ListType}
    (hl : l ∈ w.db.schema.lists) (values : Value.Entries) :
    (w.insert l.key values).Extends w.db s := by
  refine Work.reads_get.bind_extends hs fun session hsession => ?_
  obtain rfl := (Work.get_yields.1 hsession).1
  refine (Work.reads_ofExcept _).bind_extends hs fun ⟨row, store⟩ hrow => ?_
  obtain ⟨rfl, hfresh, hnull⟩ := hd.insert_ok hl (Work.ofExcept_yields.1 hrow).1
  have hnew := (hs.append hfresh hnull)
  refine (Work.setStore_extends ⟨hnew, s.store.ids_subset_append l.key row⟩).bind ?_
  exact fun _ m _ hm => (Work.reads_pure row).extends hm.sound

theorem insertColumns_extends (hd : w.db.Compiles d) (hs : w.db.Sound s.store) (list : String)
    (data : Value) : (w.insertColumns list data).Extends w.db s := by
  refine (w.listOf_reads list).bind_extends hs fun l hl => ?_
  obtain ⟨hmem, rfl⟩ := Schema.mem_of_list? (listOf_yields.1 hl).1
  refine (Work.reads_ofExcept _).bind_extends hs fun c _ => ?_
  refine (Work.generate_extends _ hs).bind fun values m _ hm => ?_
  refine (insert_extends hd hm.sound hmem values).bind fun row m' _ hm' => ?_
  exact (Work.reads_pure _).extends hm'.sound

theorem insertColumns_mem (hd : w.db.Compiles d) {data : Value} {row : Row} {m : Session}
    {links : List (String × Resolve.LinkAction)}
    (h : (w.insertColumns list data).Yields s (row, links) m) : row.id ∈ m.store.ids list := by
  obtain ⟨l, -, rfl, -, hstore, -⟩ := insertColumns_yields hd h
  rw [hstore, Store.ids_setRows, if_pos rfl, List.map_append]
  exact List.mem_append_right _ (List.mem_singleton_self _)

theorem change_extends (hd : w.db.Compiles d) (hs : w.db.Sound s.store) {l : ListType}
    (hl : l ∈ w.db.schema.lists) (id : Int) {values : Value.Entries}
    (hid : .text "id" ∉ values.map Prod.fst) : (w.change l.key id values).Extends w.db s := by
  refine Work.reads_store.bind_extends hs fun t ht => ?_
  obtain rfl := (Work.store_yields.1 ht).1
  refine (Work.reads_ofExcept _).bind_extends hs fun store hstore => ?_
  have hsame := hd.update_sameLinks hl hs.keyed hid (Work.ofExcept_yields.1 hstore).1
  have hnew := hs.of_sameLinks hsame
  refine (Work.setStore_extends (.of_ids_eq hnew fun list => (hsame.rows.ids_eq list).symm)).bind ?_
  refine fun _ m _ hm => Work.reads_store.bind_extends hm.sound fun t _ => ?_
  split
  · exact (Work.reads_throw _).extends hm.sound
  · exact (Work.reads_pure ()).extends hm.sound

theorem changeColumns_extends (hd : w.db.Compiles d) (hb : d.UsesBuiltIns)
    (hs : w.db.Sound s.store) (list : String) (id : Int) (data : Value) :
    (w.changeColumns list id data).Extends w.db s := by
  refine (w.listOf_reads list).bind_extends hs fun l hl => ?_
  obtain ⟨hmem, rfl⟩ := Schema.mem_of_list? (listOf_yields.1 hl).1
  refine (Work.reads_ofExcept _).bind_extends hs fun c hc => ?_
  refine (Work.generate_extends _ hs).bind fun values m hvalues hm => ?_
  obtain ⟨supply, hstamp, -⟩ := Work.generate_yields hvalues
  have hkeys := hd.update_keys hb hmem (Work.ofExcept_yields.1 hc).1 hstamp
  split
  · refine (change_extends hd hm.sound hmem id hkeys).bind fun _ m' _ hm' => ?_
    exact (Work.reads_pure _).extends hm'.sound
  · exact (Work.reads_pure _).extends hm.sound

/-! ## Writes -/

/-- Creating a record at any depth of nesting extends a sound store. -/
theorem createWithin_creates (hd : w.db.Compiles d) (hapart : w.db.JoinsApart) (depth : Nat) :
    w.Creates (w.createWithin depth) := by
  induction depth with
  | zero =>
    intro list data s hs
    exact ⟨(Work.reads_throw _).extends hs, fun _ _ h => absurd h Work.not_throw_yields⟩
  | succ depth ih =>
    intro list data s hs
    have hcolumns := insertColumns_extends hd hs list data
    have hlinks {row : Row} {links : List (String × Resolve.LinkAction)} {m : Session}
        (h : (w.insertColumns list data).Yields s (row, links) m) :
        (w.applyLinks (w.createWithin depth) list row.id links).Extends w.db m :=
      applyLinks_extends hd hapart ih links (hcolumns.of_yields h).sound (insertColumns_mem hd h)
    constructor
    · refine hcolumns.bind fun ⟨row, links⟩ m h _ => ?_
      exact (hlinks h).bind fun _ m' _ hm' => (Work.reads_pure _).extends hm'.sound
    · intro id s' h
      simp only [createWithin, Work.bind_yields, Work.pure_yields] at h
      obtain ⟨⟨row, links⟩, m, h, _, m', happlied, rfl, rfl⟩ := h
      exact ((hlinks h).of_yields happlied).ids list (insertColumns_mem hd h)

theorem create_extends (w : Worker) (hd : w.db.Compiles d) (hapart : w.db.JoinsApart)
    (hs : w.db.Sound s.store) (list : String) (data : Value) :
    (w.create list data).Extends w.db s := by
  refine (createWithin_creates hd hapart w.db.depth list data s hs).1.bind fun id m _ hm => ?_
  exact (w.recordOf_reads list id).extends hm.sound

theorem update_extends (w : Worker) (hd : w.db.Compiles d) (hb : d.UsesBuiltIns) (hapart : w.db.JoinsApart)
    (hs : w.db.Sound s.store) (list : String) (filter data : Value) :
    (w.update list filter data).Extends w.db s := by
  refine (w.require_reads list filter).bind_extends hs fun id hid => ?_
  refine (w.recordOf_reads list id).bind_extends hs fun before _ => ?_
  refine (changeColumns_extends hd hb hs list id data).bind fun links m _ hm => ?_
  have hmem := hm.ids list (require_yields.1 hid).1.mem
  have hcreate := createWithin_creates hd hapart w.db.depth
  refine (applyLinks_extends hd hapart hcreate links hm.sound hmem).bind fun _ m' _ hm' => ?_
  refine Work.reads_store.bind_extends hm'.sound fun t _ => ?_
  split
  · exact (Work.reads_pure _).extends hm'.sound
  · exact (Work.reads_pure _).extends hm'.sound

end Worker

/-! ## Runs -/

/-- A call that writes, with how it is worked on. -/
inductive WriteCall where
  | create (policy : SetPolicy) (context : Value) (list : String) (data : Value)
  | update (policy : SetPolicy) (context : Value) (list : String) (filter data : Value)

/-- What a call does. -/
def WriteCall.work (db : Database) : WriteCall → Work Record
  | .create setPolicy context list data => Worker.create { db, setPolicy, context } list data
  | .update setPolicy context list filter data =>
    Worker.update { db, setPolicy, context } list filter data

/-- The session after calls, whether they succeed or not. -/
def Database.run (db : Database) : List WriteCall → Session → Session
  | [], s => s
  | c :: cs, s => db.run cs ((c.work db).outcome s).2

namespace Database.Compiles

variable {db : Database} {d : Declarations}

/-- Every call extends a sound store. -/
theorem work_extends (h : db.Compiles d) (hb : d.UsesBuiltIns) (hapart : db.JoinsApart) (c : WriteCall)
    {s : Session} (hs : db.Sound s.store) : (c.work db).Extends db s := by
  cases c with
  | create setPolicy context list data =>
    let w : Worker := { db, setPolicy, context }
    exact w.create_extends h hapart hs list data
  | update setPolicy context list filter data =>
    let w : Worker := { db, setPolicy, context }
    exact w.update_extends h hb hapart hs list filter data

theorem run_extends (h : db.Compiles d) (hb : d.UsesBuiltIns) (hapart : db.JoinsApart)
    (calls : List WriteCall) {s : Session} (hs : db.Sound s.store) :
    db.Extends s.store (db.run calls s).store := by
  induction calls generalizing s with
  | nil => exact .refl hs
  | cons c r ih =>
    have hc : db.Extends s.store ((c.work db).outcome s).2.store := h.work_extends hb hapart c hs
    exact hc.trans (ih hc.sound)

/-- Whatever is called from the empty store on, every link leads to a record. -/
theorem run_sound (h : db.Compiles d) (hb : d.UsesBuiltIns) (hapart : db.JoinsApart)
    (supply : Supply) (calls : List WriteCall) : db.Sound (db.run calls { supply }).store :=
  (h.run_extends hb hapart calls db.sound_empty).sound

end Database.Compiles

/-! ## Posts and tags -/

/-- A tag, a post with that tag and a new one, and a post whose tag is missing. -/
def blogCalls : List WriteCall :=
  [.create .reject .null "Tag" (.map [(.text "name", .text "a")]),
    .create .reject .null "Post" (.map [(.text "tags", .map [
      (.text "connect", .list [.map [(.text "name", .text "a")]]),
      (.text "create", .list [.map [(.text "name", .text "b")]])])]),
    .create .reject .null "Post" (.map [(.text "tags", .map [
      (.text "connect", .list [.map [(.text "name", .text "c")]])])])]

/-- The post whose tag is missing is there, without a tag. -/
theorem run_sound_blog :
    ((blog.database.result.run blogCalls { supply := blogSupply }).store.ids "Post" = [1, 2] ∧
      (blog.database.result.run blogCalls { supply := blogSupply }).store.pairs "_Post_tags" =
        [(1, 1), (1, 2)]) ∧
      blog.database.result.Sound
        (blog.database.result.run blogCalls { supply := blogSupply }).store := by
  have hone : ∀ p ∈ blog.database.result.schema.plans, ∀ q ∈ blog.database.result.schema.plans,
      p = q := by decide +kernel
  exact ⟨by decide +kernel, blog_compiles.run_sound blog_usesBuiltIns
    (fun p hp q hq _ _ _ _ _ => .inl (hone p hp q hq)) blogSupply blogCalls⟩

end RecordSchema
