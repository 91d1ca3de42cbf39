import RecordSchema.Proofs.Request.Append
import RecordSchema.Proofs.Request.Stamped

/-!
# What an update leaves

The data of an update write the columns of the fields that they send and
those of the subfields that they send inside a composite, and every
update writes the stamped columns (`ListType.written`). An update without
links changes nothing else: no other column of the row, no key column,
no other row and no link. A composite that is null, or that names some of
its subfields only, leaves the others what they were.
-/

namespace RecordSchema

open Layout

/-- The columns of a field that an update writes: those of the subfields that its data
send, or the one column if its entry is sent or stamped. -/
def Storage.written (data : Value.Entries) (key : String) : Storage → List String
  | .multi fields =>
    (fields.filter fun e => !(data.column key e.1).isUnset).map fun e => subfieldColumn key e.1 e.2
  | s => if s.isStamped || !(data.get key).isUnset then (fieldKinds key s).map Prod.fst else []

theorem Storage.written_scalarish {s : Storage} (hs : s.isScalarish = true)
    (data : Value.Entries) (key : String) : s.written data key =
      if s.isStamped || !(data.get key).isUnset then (fieldKinds key s).map Prod.fst else [] := by
  cases s <;> first | rfl | cases hs

/-- The columns of a list that an update writes. -/
def ListType.written (l : ListType) (data : Value.Entries) : List String :=
  l.fields.flatMap fun e => e.2.storage.written data e.1

/-! ## Changed rows -/

/-- A change leaves every other row and every column that data give nothing. -/
theorem Database.Compiles.update_rows {db : Database} {d : Declarations} (h : db.Compiles d)
    {l : ListType} (hl : l ∈ db.schema.lists) {s s' : Store} (hs : s.Keyed) {id : Int}
    {data : Value.Entries} (hid : .text "id" ∉ data.map Prod.fst)
    (hu : db.update s l.key id data = .ok s') :
    ∃ given, (tableOf db.schema.plans l).assign data = .ok given ∧
      (∀ table, s'.pairs table = s.pairs table) ∧
      (∀ other, other ≠ l.key → s'.rows other = s.rows other) ∧
      List.Forall₂ (fun r r' => (r.id ≠ id → r' = r) ∧
        Row.AgreeOn (fun column => column ∉ given.map Prod.fst) r r')
        (s.rows l.key) (s'.rows l.key) := by
  obtain ⟨given, cells, hgiven, hcells, ⟨-, rfl⟩ | ⟨r, r', hr, hr', -, rfl⟩⟩ := h.update_row hl hu
  · exact ⟨given, hgiven, fun _ => rfl, fun _ _ => rfl,
      List.forall₂_same.2 fun r _ => ⟨fun _ => rfl, rfl, fun _ _ => rfl⟩⟩
  · obtain rfl := changed_ok hr' (h.id_notMem_bind hl hgiven hcells hid)
    obtain ⟨hmem, hrid⟩ := Store.row?_mem hr
    refine ⟨given, hgiven, fun _ => rfl, fun other ho => ?_, ?_⟩
    · rw [Store.rows_modifyRows, if_neg ho]
    · rw [Store.rows_modifyRows, if_pos rfl]
      refine List.forall₂_map_right_iff.2 (List.forall₂_same.2 fun o ho => ?_)
      split
      · next hq =>
        obtain rfl : r = o := Store.eq_of_mem_rows hs hmem ho (hrid.trans (eq_of_beq hq).symm)
        refine ⟨fun hne => absurd hrid hne, (Row.setAll_id r _).symm, fun column hnot => ?_⟩
        refine (Row.cell_setAll_of_notMem r fun hcolumn => hnot ?_).symm
        obtain ⟨e, he, rfl⟩ := List.mem_map.1 hcolumn
        exact TableLayout.bind_names hcells (List.mem_filter.1 he).1
      · exact ⟨fun _ => rfl, rfl, fun _ _ => rfl⟩

/-! ## Resolved values -/

namespace Resolve

/-- A value for the columns of a write is what its field makes of a resolved value. -/
theorem exists_change {l : ListType} {op : Operation} {policy : SetPolicy}
    {vs : List (String × Value)} {c : Changes} (h : split l op policy vs = .ok c) {key : String}
    {w : Value} (hw : (.text key, w) ∈ c.values) :
    ∃ v f here, (key, v) ∈ vs ∧ l.field? key = some f ∧
      change op policy key f.storage v = .ok here ∧ (.text key, w) ∈ here.values := by
  induction vs generalizing c with
  | nil =>
    cases h
    cases hw
  | cons e r ih =>
    obtain ⟨name, v⟩ := e
    have later {c : Changes} (h : split l op policy r = .ok c) (hw : (.text key, w) ∈ c.values) :
        ∃ u f here, (key, u) ∈ (name, v) :: r ∧ l.field? key = some f ∧
          change op policy key f.storage u = .ok here ∧ (.text key, w) ∈ here.values := by
      obtain ⟨u, f, here, hu, hrest⟩ := ih h hw
      exact ⟨u, f, here, List.mem_cons_of_mem _ hu, hrest⟩
    cases hf : l.field? name with
    | none =>
      simp only [split, hf] at h
      exact later h hw
    | some f =>
      obtain ⟨here, rest, hhere, hrest, rfl⟩ := split_cons hf h
      rcases List.mem_append.1 hw with hw | hw
      · obtain rfl : key = name := Value.text.inj (change_keys hhere hw)
        exact ⟨v, f, here, List.mem_cons_self, hf, hhere, hw⟩
      · exact later hrest hw

/-- The values of an update belong to entries that were sent. -/
theorem isUnset_of_mem_data {l : ListType} {context : Value} {es : Value.Entries}
    {vs : List (String × Value)} (h : Resolve.data l .update context (.map es) = .ok vs)
    {key : String} {v : Value} (hv : (key, v) ∈ vs) : (es.get key).isUnset = false := by
  obtain ⟨es', heq, all, rfl, hall⟩ := data_ok h
  cases heq
  have ho : (key, .ok v) ∈ dataOutcomes .update context es l.fields := by
    rw [hall]
    exact List.mem_map.2 ⟨(key, v), (List.mem_filter.1 hv).1, rfl⟩
  obtain ⟨f, -, -, hsent | hop, -⟩ := mem_dataOutcomes.1 ho
  · exact hsent
  · cases hop

end Resolve

/-- A composite takes the mapping of a client as it is, and an empty one for none. -/
theorem FieldSpec.IsBuiltIn.composite_resolve {spec : FieldSpec} (hb : spec.IsBuiltIn)
    {d : BuildData} {f : Field} (h : spec.assemble d = .ok f) {fields : List (String × Storage)}
    (hs : f.storage = .multi fields) {op : Operation} {i : FieldInput}
    (hi : f.input? op = some i) :
    ∃ resolve, i.resolve = some resolve ∧
      ∀ c, resolve c = .ok (if c.value.isPresent then c.value else .map []) := by
  obtain ⟨t, hbuild, ht⟩ := assemble_ok h
  obtain ⟨-, -, -, -, hstorage, hinputs⟩ := FieldType.assemble_ok ht
  rw [hstorage] at hs
  rw [Field.input?, hinputs] at hi
  cases hb with
  | scalar =>
    cases hbuild
    cases hs
  | select o =>
    obtain ⟨e, he⟩ := select_storage hbuild
    rw [he] at hs
    cases hs
  | relationship o =>
    obtain ⟨⟨r, hr⟩, -⟩ := relationship_wiring hbuild
    rw [hr] at hs
    cases hs
  | virtual =>
    cases hbuild
    cases hs
  | composite =>
    simp only [FieldSpec.composite] at hbuild
    split at hbuild
    · cases Except.pure_eq_ok.1 hbuild
      cases hi
    · obtain ⟨_, -, hbuild⟩ := Except.bind_eq_ok.1 hbuild
      cases Except.pure_eq_ok.1 hbuild
      cases op <;> cases hi <;> exact ⟨_, rfl, fun _ => rfl⟩

namespace Database.Compiles

variable {db : Database} {d : Declarations} {l : ListType} {policy : SetPolicy} {context : Value}
  {es : Value.Entries} {c : Resolve.Changes} {key : String} {f : Field}

/-- Values for columns come from entries that were sent. -/
theorem isUnset_of_mem_changes
    (hc : Resolve.changes l .update policy context (.map es) = .ok c) {w : Value}
    (hw : (.text key, w) ∈ c.values) : (es.get key).isUnset = false := by
  obtain ⟨vs, hvs, hsplit⟩ := Except.bind_eq_ok.1 hc
  obtain ⟨v, -, -, hv, -⟩ := Resolve.exists_change hsplit hw
  exact Resolve.isUnset_of_mem_data hvs hv

/-- What a composite makes of its input. -/
theorem composite_input (h : db.Compiles d) (hb : d.UsesBuiltIns) (hl : l ∈ db.schema.lists)
    (hf : (key, f) ∈ l.fields) {fields : List (String × Storage)} (hs : f.storage = .multi fields)
    {op : Operation} (haccepts : f.accepts op = true) {v result : Value}
    (hv : f.resolveInput op v context = .ok result) :
    result = if v.isPresent then v else .map [] := by
  obtain ⟨i, hi⟩ := Option.isSome_iff_exists.1 haccepts
  obtain ⟨spec, hspec, hok⟩ := h.builtIn hb hl hf
  obtain ⟨resolve, hresolve, hvalue⟩ := hspec.composite_resolve hok hs hi
  simp only [Field.resolveInput, hi, hresolve, hvalue, Except.bind_eq_ok] at hv
  obtain ⟨v', hv', hv⟩ := hv
  obtain rfl : (if v.isPresent then v else .map []) = v' := Except.ok.inj hv'
  generalize (if v.isPresent then v else .map []) = w at hv ⊢
  split at hv
  · exact (Except.pure_eq_ok.1 hv).symm
  · exact absurd hv Except.throw_ne_ok

/-- A composite that is written has the entries that were sent in its mapping. -/
theorem eq_sent_of_mem_changes (h : db.Compiles d) (hb : d.UsesBuiltIns)
    (hl : l ∈ db.schema.lists)
    (hc : Resolve.changes l .update policy context (.map es) = .ok c) (hf : (key, f) ∈ l.fields)
    {fields : List (String × Storage)} (hs : f.storage = .multi fields) {w : Value}
    (hw : (.text key, w) ∈ c.values) :
    w = .map (Resolve.sent ((es.get key).entries?.getD [])) := by
  obtain ⟨vs, hvs, hsplit⟩ := Except.bind_eq_ok.1 hc
  obtain ⟨v, f', here, hv, hf', hhere, hw⟩ := Resolve.exists_change hsplit hw
  obtain rfl := Option.some.inj ((h.field?_eq hl hf).symm.trans hf')
  obtain ⟨f', hf', haccepts, -, hresolve⟩ := Resolve.mem_data hvs hv
  obtain rfl := Keys.eq_of_mem (h.fields_nodup hl) hf hf'
  have hvalue := h.composite_input hb hl hf hs haccepts hresolve
  simp only [Resolve.change, hs] at hhere
  split at hhere
  · next sub =>
    cases hhere
    obtain ⟨-, rfl⟩ := Prod.mk.inj (List.mem_singleton.1 hw)
    split at hvalue
    · rw [← hvalue]
      rfl
    · next hnot =>
      obtain rfl : sub = [] := by simpa using hvalue
      cases hget : es.get key <;> simp_all [Value.isPresent, Value.entries?]
  · cases hhere

/-- A column that the values of an update give something is one that it writes. -/
theorem mem_written_of_given (h : db.Compiles d) (hb : d.UsesBuiltIns)
    (hl : l ∈ db.schema.lists)
    (hc : Resolve.changes l .update policy context (.map es) = .ok c) {values : Value.Entries}
    {m m' : Supply}
    (hstamp : (Storage.stampAll l.storedFields c.values).run m = .ok (values, m'))
    (hid : .text "id" ∉ values.map Prod.fst) {given : List (String × Value)}
    (hgiven : (tableOf db.schema.plans l).assign values = .ok given) {e : String × Value}
    (he : e ∈ given) : e.1 ∈ l.written es := by
  obtain ⟨key, w, place, here, hw, -, hplace, hhere, he⟩ := TableLayout.mem_assign hgiven he
  rcases mem_fields.1 (Keys.mem_of_lookup hplace) with ⟨rfl, -⟩ | ⟨-, f, part, hf, hpart, rfl⟩
  · exact absurd (List.mem_map.2 ⟨_, hw, rfl⟩) hid
  have hname := TableLayout.assignField_names hhere he
  rw [place_names_eq hpart] at hname
  -- Only what is no stamp comes from the data.
  have hchanged (hplain : f.storage.isStamped = false) : (.text key, w) ∈ c.values := by
    refine (Storage.stampAll_ne hstamp fun s hs => ?_).1 hw
    obtain ⟨f', hf', rfl⟩ := ListType.mem_storedFields hs
    rwa [Keys.eq_of_mem (h.fields_nodup hl) hf' hf]
  refine List.mem_flatMap.2 ⟨(key, f), hf, ?_⟩
  dsimp only
  cases hs : f.storage with
  | multi fields =>
    obtain rfl := h.eq_sent_of_mem_changes hb hl hc hf hs (hchanged (hs ▸ rfl))
    rw [hs] at hpart
    cases hpart
    cases hhere
    obtain ⟨_, hmem, hset, hlookup⟩ := TableLayout.mem_assignSubfields he
    obtain ⟨⟨name, sub⟩, hsub, heq⟩ := List.mem_map.1 (Keys.mem_of_lookup hlookup)
    obtain ⟨rfl, hcolumn⟩ := Prod.mk.inj heq
    obtain ⟨hvalue, -⟩ := Value.Entries.eq_get_of_mem_sent hmem
    have hsent : (!(es.column key name).isUnset) = true := by
      rw [Value.Entries.column, ← hvalue, hset, Bool.not_false]
    exact hcolumn ▸ List.mem_map_of_mem (List.mem_filter.2 ⟨hsub, hsent⟩)
  | scalar | enum =>
    rw [hs] at hname hchanged
    rw [Storage.written_scalarish rfl, if_pos]
    · exact hname
    · refine Bool.or_eq_true_iff.2 (or_iff_not_imp_left.2 fun hplain => ?_)
      rw [isUnset_of_mem_changes hc (hchanged (Bool.eq_false_of_not_eq_true hplain))]
      rfl
  | none | relation | unsupported =>
    rw [hs] at hpart
    cases hpart

end Database.Compiles

/-! ## Updates -/

namespace Worker

variable {w : Worker} {d : Declarations} {s s' : Session} {list : String} {filter data : Value}
  {record : Record}

/-- An update whose data mention no relation ends with the change of the columns. -/
theorem update_columns (hd : w.db.Compiles d) (hb : d.UsesBuiltIns)
    (hdata : w.Mentions list [] data) (h : (w.update list filter data).Yields s record s') :
    ∃ id links, w.Names s list filter id ∧ (w.changeColumns list id data).Yields s links s' := by
  simp only [update, Work.bind_yields, require_yields] at h
  obtain ⟨id, m, ⟨hid, rfl⟩, _, m₀, hrecord, links, m₁, hcolumns, _, m₂, hlinks, h⟩ := h
  obtain rfl := (w.recordOf_reads list id).eq hrecord
  obtain ⟨l, hl, rfl, c, hc, rfl, -⟩ := changeColumns_changes hcolumns
  obtain ⟨_, hvs, -⟩ := Except.bind_eq_ok.1 hc
  obtain ⟨es, rfl, -⟩ := Resolve.data_ok hvs
  have hnone := hd.links_eq_nil hb hl (.inr rfl) (hdata l hl rfl) hc
  simp only [hnone, applyLinks] at hlinks
  obtain ⟨-, rfl⟩ := Work.pure_yields.1 hlinks
  obtain ⟨_, _, ⟨rfl, rfl⟩, h⟩ := h
  have hend : m₁ = s' := by
    split at h <;> exact (Work.pure_yields.1 h).2
  exact ⟨id, c.links, hid, hend ▸ hcolumns⟩

/-- An update whose data mention no relation changes one row, and of this row the columns
that the data write. It leaves the id and the key columns of the row, all other rows, and
the pairs of all join tables. -/
theorem update_frame (hd : w.db.Compiles d) (hb : d.UsesBuiltIns) (hs : s.store.Keyed)
    (hdata : w.Mentions list [] data) (h : (w.update list filter data).Yields s record s') :
    ∃ l ∈ w.db.schema.lists, l.key = list ∧ ∃ es, data = .map es ∧
      ∃ id, w.Names s list filter id ∧
        (∀ table, s'.store.pairs table = s.store.pairs table) ∧
        (∀ other, other ≠ list → s'.store.rows other = s.store.rows other) ∧
        List.Forall₂ (fun r r' => (r.id ≠ id → r' = r) ∧
          Row.AgreeOn (fun column => column ∉ l.written es) r r' ∧
          Row.AgreeOn (w.db.IsKey list) r r')
          (s.store.rows list) (s'.store.rows list) := by
  obtain ⟨id, links, hid, hcolumns⟩ := update_columns hd hb hdata h
  obtain ⟨l, hl, rfl, c, hc, -, values, supply, hstamp, hwritten⟩ := changeColumns_changes hcolumns
  obtain ⟨_, hvs, -⟩ := Except.bind_eq_ok.1 hc
  obtain ⟨es, rfl, -⟩ := Resolve.data_ok hvs
  refine ⟨l, hl, rfl, es, rfl, id, hid, ?_⟩
  obtain ⟨store, hupdate, -, rfl⟩ | ⟨-, rfl⟩ := hwritten
  · have hnoid := hd.update_keys hb hl hc hstamp
    obtain ⟨given, hgiven, hpairs, hothers, hrows⟩ := hd.update_rows hl hs hnoid hupdate
    refine ⟨hpairs, hothers, hrows.imp fun r r' hr => ?_⟩
    obtain ⟨hother, hsame, hcells⟩ := hr
    refine ⟨hother, ⟨hsame, fun column hnot => hcells column fun hmem => hnot ?_⟩,
      hsame, fun column hk => hcells column fun hmem => ?_⟩
    · obtain ⟨e, he, rfl⟩ := List.mem_map.1 hmem
      exact hd.mem_written_of_given hb hl hc hstamp hnoid hgiven he
    · obtain ⟨e, he, rfl⟩ := List.mem_map.1 hmem
      exact hd.assign_not_isKey hl hgiven he hk
  · exact ⟨fun _ => rfl, fun _ _ => rfl, List.forall₂_same.2 fun r _ =>
      ⟨fun _ => rfl, ⟨rfl, fun _ _ => rfl⟩, rfl, fun _ _ => rfl⟩⟩

end Worker

/-! ## Tasks at places -/

/-- A schema of tasks with a place, an owner and the time of their last change. -/
def tasks : Declarations :=
  (({} : Declarations).declare {
    key := "Task"
    specs := [
      ("title", .scalar .text {}),
      ("place", .composite [("street", .scalar { scalar := .text }),
        ("city", .scalar { scalar := .text })] none none),
      ("owner", .relationship { ref := "User" }),
      ("changed", .timestamp false { updatedAt := true })] }).declare {
    key := "User"
    specs := [("name", .scalar .text {})] }

theorem tasks_usesBuiltIns : tasks.UsesBuiltIns := by
  have hstart : ({} : Declarations).UsesBuiltIns := nofun
  refine (hstart.declare ?task).declare (List.forall_mem_singleton.2 (.scalar .text _))
  case task =>
    have hplace : (FieldSpec.composite [("street", .scalar { scalar := .text }),
        ("city", .scalar { scalar := .text })] none none).IsBuiltIn := .composite _ _ _
    refine List.forall_mem_cons.2 ⟨.scalar .text _, List.forall_mem_cons.2 ⟨hplace, ?_⟩⟩
    refine List.forall_mem_cons.2 ⟨.relationship _, ?_⟩
    exact List.forall_mem_singleton.2 (.scalar .dateTime _)

def taskWorker : Worker where
  db := tasks.database.result
  setPolicy := .reject

/-- Two tasks, the first of which has a place and an owner. -/
def taskSession : Session where
  store := {
    tables := [
      ("Task", [⟨1, [("title", .text "paint"), ("place_street", .text "Main"),
        ("place_city", .text "Oslo"), ("owner_id", .int 1)]⟩, ⟨2, []⟩]),
      ("User", [⟨1, []⟩])] }
  supply := blogSupply

/-- The city of a task, and nothing of its street. -/
def moved : Value.Entries :=
  [(.text "place", .map [(.text "city", .text "Rome"), (.text "street", .unset)])]

/-- The facts about tasks that are evaluated, in one go. -/
theorem tasks_facts :
    tasks.database.isOk = true ∧
      ((taskWorker.update "Task" (.map [(.text "id", .int 1)]) (.map moved)).outcome
        taskSession).1.isOk = true ∧
      ((taskWorker.require "Task" (.map [(.text "id", .int 1)])).outcome taskSession).1.toOption =
        some 1 ∧
      taskWorker.Mentions "Task" [] (.map moved) ∧
      ∀ l ∈ taskWorker.db.schema.lists, l.key = "Task" →
        l.written moved = ["place_city", "changed"] := by
  decide +kernel

theorem tasks_compiles : tasks.database.result.Compiles tasks :=
  Declarations.Declared.compiles (.declare (.declare (.start _ _ _) (by decide)) (by decide))
    tasks_facts.1

/-- A task that is moved to another city keeps its street, its owner and its title. -/
theorem update_frame_tasks : ∃ record s',
    (taskWorker.update "Task" (.map [(.text "id", .int 1)]) (.map moved)).Yields
        taskSession record s' ∧
      (∀ table, s'.store.pairs table = []) ∧
      s'.store.rows "User" = taskSession.store.rows "User" ∧
      List.Forall₂ (fun r r' => (r.id ≠ 1 → r' = r) ∧
        Row.AgreeOn (fun column => column ∉ ["place_city", "changed"]) r r')
        (taskSession.store.rows "Task") (s'.store.rows "Task") := by
  obtain ⟨-, hok, hnamed, honly, hwritten⟩ := tasks_facts
  obtain ⟨record, s', h⟩ := Work.exists_yields hok
  obtain ⟨l, hl, hkey, es, hes, id, hid, hpairs, hothers, hrows⟩ :=
    Worker.update_frame (w := taskWorker) tasks_compiles tasks_usesBuiltIns
      (.of_tables (by decide +kernel)) honly h
  obtain rfl := Value.map.inj hes
  obtain rfl := hid.eq (Worker.names_of_outcome hnamed)
  rw [hwritten l hl hkey] at hrows
  exact ⟨record, s', h, hpairs, hothers "User" (by decide), hrows.imp fun r r' hr =>
    ⟨hr.1, hr.2.1⟩⟩

end RecordSchema
