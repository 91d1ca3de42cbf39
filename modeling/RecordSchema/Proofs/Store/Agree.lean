import RecordSchema.Proofs.Store.Linked
import RecordSchema.Proofs.Store.Writes

/-!
# Stores that agree

A write to links leaves every field of every row as it is
(`Database.SameFields`), and a write to fields leaves all links as they
are (`Database.SameLinks`). Unique filters look at fields only, so they
name the same records in stores with the same fields.
-/

namespace RecordSchema

/-! ## Agreement -/

/-- Whether two rows have the same id and the same cells in certain columns. -/
def Row.AgreeOn (P : String → Prop) (r r' : Row) : Prop :=
  r.id = r'.id ∧ ∀ column, P column → r.cell column = r'.cell column

namespace Store

/-- Whether two stores have the same rows as far as certain columns tell. -/
def AgreeOn (P : String → String → Prop) (s s' : Store) : Prop :=
  ∀ list, List.Forall₂ (Row.AgreeOn (P list)) (s.rows list) (s'.rows list)

namespace AgreeOn

variable {P : String → String → Prop} {s s' s'' : Store}

theorem refl (P : String → String → Prop) (s : Store) : s.AgreeOn P s :=
  fun _ => List.forall₂_same.2 fun _ _ => ⟨rfl, fun _ _ => rfl⟩

theorem symm (h : s.AgreeOn P s') : s'.AgreeOn P s := by
  intro list
  have hflip : List.Forall₂ (flip (Row.AgreeOn (P list))) (s.rows list) (s'.rows list) :=
    (h list).imp fun r r' hr => ⟨hr.1.symm, fun c hc => (hr.2 c hc).symm⟩
  exact hflip.flip

theorem trans (h : s.AgreeOn P s') (h' : s'.AgreeOn P s'') : s.AgreeOn P s'' := by
  intro list
  have hs := h list
  have hs' := h' list
  generalize s.rows list = rs, s'.rows list = rs', s''.rows list = rs'' at hs hs'
  induction hs generalizing rs'' with
  | nil =>
    cases hs'
    exact .nil
  | cons hr _ ih =>
    cases hs' with
    | cons hr' hrest =>
      exact .cons ⟨hr.1.trans hr'.1, fun c hc => (hr.2 c hc).trans (hr'.2 c hc)⟩ (ih _ hrest)

theorem ids_eq (h : s.AgreeOn P s') (list : String) : s.ids list = s'.ids list := by
  have hs := h list
  simp only [ids]
  generalize s.rows list = rs, s'.rows list = rs' at hs
  induction hs with
  | nil => rfl
  | cons hr _ ih => rw [List.map_cons, List.map_cons, hr.1, ih]

/-- In stores that agree, an id leads to rows that agree. -/
theorem row? (h : s.AgreeOn P s') (list : String) (id : Int) :
    Option.Rel (Row.AgreeOn (P list)) (s.row? list id) (s'.row? list id) := by
  have hrows := h list
  simp only [Store.row?]
  generalize s.rows list = rs, s'.rows list = rs' at hrows
  induction hrows with
  | nil => exact .none
  | @cons r r' rest rest' hr _ ih =>
    rw [List.find?_cons, List.find?_cons, ← hr.1]
    cases r.id == id with
    | true => exact .some hr
    | false => exact ih

theorem of_modifyRows {list : String} {q : Row → Bool} {f : Row → Row}
    (hf : ∀ r ∈ s.rows list, q r = true → Row.AgreeOn (P list) r (f r)) :
    s.AgreeOn P (s.modifyRows list q f) := by
  intro other
  rw [rows_modifyRows]
  split
  · next heq =>
    subst heq
    refine List.forall₂_map_right_iff.2 (List.forall₂_same.2 fun r hr => ?_)
    split
    · exact hf r hr ‹_›
    · exact ⟨rfl, fun _ _ => rfl⟩
  · exact List.forall₂_same.2 fun _ _ => ⟨rfl, fun _ _ => rfl⟩

end AgreeOn

end Store

namespace Database

/-- Whether two stores have the same rows up to key columns. -/
def SameFields (db : Database) (s s' : Store) : Prop :=
  s.AgreeOn (fun list column => ¬ db.IsKey list column) s'

/-- Whether two stores have the same links. -/
structure SameLinks (db : Database) (s s' : Store) : Prop where
  rows : s.AgreeOn db.IsKey s'
  pairs : ∀ table, s.pairs table = s'.pairs table

variable {db : Database} {d : Declarations} {s s' : Store} {list : String}

theorem SameFields.modifyRows {column : String} (hk : db.IsKey list column) (s : Store)
    (q : Row → Bool) (c : Cell) : db.SameFields s (s.modifyRows list q fun r => r.set column c) := by
  refine Store.AgreeOn.of_modifyRows fun r _ _ => ⟨rfl, fun other ho => ?_⟩
  rw [Row.cell_set_of_ne]
  rintro rfl
  exact ho hk

namespace Compiles

variable {db : Database} {d : Declarations} {p : RelationPlan} {column : String} {unique : Bool}

theorem isKey_of_ownKey (hp : p ∈ db.schema.plans)
    (hlink : p.link = .ownKey column unique) : db.IsKey p.list column :=
  ⟨p, hp, rfl, unique, hlink⟩

theorem isKey_of_targetKey (h : db.Compiles d) (hp : p ∈ db.schema.plans)
    (hlink : p.link = .targetKey column unique) : db.IsKey p.target column := by
  obtain ⟨q, hq, hs, hqlink, -⟩ := h.planned.exists_owner hp hlink
  exact ⟨q, hq, (h.planned.target_eq hp hq hs).symm, unique, hqlink⟩

theorem sameFields_connect (h : db.Compiles d) (hp : p ∈ db.schema.plans) (s : Store) (i : Int)
    (ts : List Int) : db.SameFields s (s.connect p i ts) := by
  unfold Store.connect
  split
  · exact Store.AgreeOn.refl _ s
  · split
    · next hlink =>
      have hk := isKey_of_ownKey hp hlink
      dsimp only
      split
      · exact (SameFields.modifyRows hk s _ _).trans (SameFields.modifyRows hk _ _ _)
      · exact SameFields.modifyRows hk s _ _
    · next hlink =>
      have hk := h.isKey_of_targetKey hp hlink
      split
      · exact (SameFields.modifyRows hk s _ _).trans (SameFields.modifyRows hk _ _ _)
      · exact SameFields.modifyRows hk s _ _
    · exact Store.AgreeOn.refl _ s

theorem sameFields_unlink (h : db.Compiles d) (hp : p ∈ db.schema.plans) (s : Store) (i : Int)
    (among : Int → Bool) : db.SameFields s (s.unlink p i among) := by
  unfold Store.unlink
  split
  · next hlink => exact SameFields.modifyRows (isKey_of_ownKey hp hlink) s _ _
  · next hlink => exact SameFields.modifyRows (h.isKey_of_targetKey hp hlink) s _ _
  · exact Store.AgreeOn.refl _ s

theorem sameFields_setRelated (h : db.Compiles d) (hp : p ∈ db.schema.plans) (s : Store) (i : Int)
    (ts : List Int) : db.SameFields s (s.setRelated p i ts) :=
  (h.sameFields_unlink hp s i _).trans (h.sameFields_connect hp _ i ts)

end Compiles

namespace SameLinks

theorem refl (db : Database) (s : Store) : db.SameLinks s s :=
  ⟨.refl _ s, fun _ => rfl⟩

theorem symm (h : db.SameLinks s s') : db.SameLinks s' s :=
  ⟨h.rows.symm, fun table => (h.pairs table).symm⟩

theorem mem_linked (hs : db.SameLinks s s') (hd : db.Compiles d) {p : RelationPlan}
    (hp : p ∈ db.schema.plans) (hmany : p.mode = .many) {o t : Int} (h : t ∈ s.linked p o) :
    t ∈ s'.linked p o := by
  cases hlink : p.link with
  | ownKey =>
    rw [hd.planned.mode_of_ownKey hp hlink] at hmany
    cases hmany
  | targetKey column unique =>
    rw [Store.mem_linked_targetKey hlink] at h ⊢
    obtain ⟨r, hr, rfl, hcell⟩ := h
    obtain ⟨r', hr', hid, hcells⟩ := (hs.rows p.target).exists_right hr
    have hk := hd.isKey_of_targetKey hp hlink
    exact ⟨r', hr', hid.symm, (hcells column hk).symm.trans hcell⟩
  | join table side =>
    rw [Store.mem_linked_join hlink] at h ⊢
    rw [← hs.rows.ids_eq, ← hs.pairs]
    exact h

theorem linked_iff (hs : db.SameLinks s s') (hd : db.Compiles d) {p : RelationPlan}
    (hp : p ∈ db.schema.plans) (hmany : p.mode = .many) {o t : Int} :
    t ∈ s.linked p o ↔ t ∈ s'.linked p o :=
  ⟨hs.mem_linked hd hp hmany, hs.symm.mem_linked hd hp hmany⟩

end SameLinks

/-- An update that does not name the id keeps all links. -/
theorem Compiles.update_sameLinks (h : db.Compiles d) {l : ListType} (hl : l ∈ db.schema.lists)
    (hs : s.Keyed) {id : Int} {data : Value.Entries} (hid : .text "id" ∉ data.map Prod.fst)
    (hu : db.update s l.key id data = .ok s') : db.SameLinks s s' := by
  obtain ⟨-, rfl⟩ | ⟨r, cells, hr, hcells, rfl⟩ := h.update_ok hl hid hu
  · exact .refl db s'
  · obtain ⟨hmem, hrid⟩ := Store.row?_mem hr
    refine ⟨Store.AgreeOn.of_modifyRows fun o ho hq => ?_, fun _ => rfl⟩
    obtain rfl : r = o := Store.eq_of_mem_rows hs hmem ho (hrid.trans (eq_of_beq hq).symm)
    refine ⟨(Row.setAll_id r cells).symm, fun column hk => ?_⟩
    refine (Row.cell_setAll_of_notMem r fun hmem => ?_).symm
    obtain ⟨e, he, rfl⟩ := List.mem_map.1 hmem
    exact h.fieldColumns_not_isKey hl (hcells e he) hk

end Database

/-! ## Unique filters -/

/-- A condition on cells sees only the cells that it tests. -/
theorem Condition.evalAll_cells {s s' : Store} {r r' : Row} {tests : List (String × Test)}
    (h : ∀ e ∈ tests, r.cell e.1 = r'.cell e.1) :
    evalAll s (tests.map fun e => .cell e.1 e.2) r =
      evalAll s' (tests.map fun e => .cell e.1 e.2) r' := by
  induction tests with
  | nil => rfl
  | cons e rest ih =>
    obtain ⟨he, hrest⟩ := List.forall_mem_cons.1 h
    simp only [List.map_cons, evalAll, eval]
    rw [he, ih hrest]

namespace Store

/-- The first row in order is the one with the smallest id. -/
theorem before_nil_iff {a b : Row} : RowOrder.before [] a b = true ↔ a.id ≤ b.id := by
  rw [RowOrder.before, RowOrder.compareAll, bne_iff_ne]
  exact compare_le_iff_le

theorem selectOne_some {s : Store} {list : String} {c : Condition} {r : Row}
    (h : s.selectOne list c = some r) :
    r ∈ s.rows list ∧ c.selects s r = true ∧
      ∀ o ∈ s.rows list, c.selects s o = true → r.id ≤ o.id := by
  simp only [selectOne, select, Bool.true_and] at h
  have htrans (a b c : Row) (hab : RowOrder.before [] a b = true)
      (hbc : RowOrder.before [] b c = true) : RowOrder.before [] a c = true :=
    before_nil_iff.2 ((before_nil_iff.1 hab).trans (before_nil_iff.1 hbc))
  have htotal (a b : Row) : (RowOrder.before [] a b || RowOrder.before [] b a) = true := by
    rw [Bool.or_eq_true, before_nil_iff, before_nil_iff]
    exact Int.le_total a.id b.id
  have hsorted :=
    List.pairwise_mergeSort htrans htotal ((s.rows list).filter fun r => c.selects s r)
  obtain ⟨rest, hrest⟩ := List.head?_eq_some_iff.1 h
  have hmem : r ∈ (s.rows list).filter fun r => c.selects s r :=
    List.mem_mergeSort.1 (hrest ▸ List.mem_cons_self)
  obtain ⟨hr, hsel⟩ := List.mem_filter.1 hmem
  refine ⟨hr, hsel, fun o ho hosel => ?_⟩
  have homem : o ∈ r :: rest := hrest ▸ List.mem_mergeSort.2 (List.mem_filter.2 ⟨ho, hosel⟩)
  rw [hrest, List.pairwise_cons] at hsorted
  rcases List.mem_cons.1 homem with rfl | homem
  · exact le_rfl
  · exact before_nil_iff.1 (hsorted.1 o homem)

theorem selectOne_none {s : Store} {list : String} {c : Condition} (h : s.selectOne list c = none)
    {o : Row} (ho : o ∈ s.rows list) : c.selects s o = false := by
  simp only [selectOne, select, Bool.true_and, List.head?_eq_none_iff] at h
  cases hsel : c.selects s o with
  | false => rfl
  | true =>
    have hmem : o ∈ ((s.rows list).filter fun r => c.selects s r).mergeSort (RowOrder.before []) :=
      List.mem_mergeSort.2 (List.mem_filter.2 ⟨ho, hsel⟩)
    rw [h] at hmem
    cases hmem

end Store

namespace Database

variable {db : Database} {d : Declarations} {s s' : Store} {list : String}

theorem entryConditions_ok {filter : Value.Entries} {cs : List Condition}
    {faults faults' : List Fault}
    (h : (db.entryConditions list filter).run faults = .ok (cs, faults')) :
    ∃ tests : List (String × Test), cs = tests.map (fun e => .cell e.1 e.2) ∧
      ∀ e ∈ tests, ∃ field, db.layout.column list field = .ok e.1 := by
  induction filter generalizing cs faults faults' with
  | nil =>
    cases h
    exact ⟨[], rfl, nofun⟩
  | cons e r ih =>
    obtain ⟨k, v⟩ := e
    simp only [entryConditions, Reading.bind_run, Reading.liftM_run, Reading.pure_run] at h
    obtain ⟨key, _, -, column, _, ⟨hcolumn, -⟩, test, _, -, rest, _, hrest, rfl, -⟩ := h
    obtain ⟨tests, rfl, htests⟩ := ih hrest
    exact ⟨(column, test) :: tests, rfl, List.forall_mem_cons.2 ⟨⟨key, hcolumn⟩, htests⟩⟩

/-- A unique filter tests columns that fields are kept in. -/
theorem uniqueCondition_ok {filter : Value.Entries} {c : Condition}
    (h : db.uniqueCondition list filter = .ok c) :
    ∃ tests : List (String × Test), c = .all (tests.map fun e => .cell e.1 e.2) ∧
      ∀ e ∈ tests, ∃ field, db.layout.column list field = .ok e.1 := by
  have hrun := Reading.settle_ok h
  simp only [Reading.bind_run, Reading.pure_run] at hrun
  obtain ⟨cs, _, hcs, rfl, -⟩ := hrun
  obtain ⟨tests, rfl, htests⟩ := entryConditions_ok hcs
  exact ⟨tests, rfl, htests⟩

/-- Rows that agree are selected by the same unique filters. -/
theorem Compiles.selects_agree (h : db.Compiles d) (s s' : Store) {filter : Value.Entries}
    {c : Condition} (hc : db.uniqueCondition list filter = .ok c) {r r' : Row}
    (hr : Row.AgreeOn (fun column => ¬ db.IsKey list column) r r') :
    c.selects s r = c.selects s' r' := by
  obtain ⟨tests, rfl, htests⟩ := uniqueCondition_ok hc
  simp only [Condition.selects, Condition.eval]
  rw [Condition.evalAll_cells fun e he => ?_]
  obtain ⟨field, hcolumn⟩ := htests e he
  exact hr.2 e.1 (h.column_not_isKey hcolumn)

/-- A unique filter names the same id in stores that agree. -/
theorem Compiles.findOne_agree (h : db.Compiles d) (hs : db.SameFields s s') {filter : Value.Entries}
    {r : Option Row} (hr : db.findOne s list filter = .ok r) :
    ∃ r', db.findOne s' list filter = .ok r' ∧ r'.map (·.id) = r.map (·.id) := by
  simp only [findOne, Except.bind_eq_ok, Except.pure_eq_ok] at hr ⊢
  obtain ⟨t, ht, c, hc, rfl⟩ := hr
  refine ⟨s'.selectOne list c, ⟨t, ht, c, hc, rfl⟩, ?_⟩
  cases hone : s.selectOne list c with
  | none =>
    cases hone' : s'.selectOne list c with
    | none => rfl
    | some r' =>
      obtain ⟨hr', hsel, -⟩ := Store.selectOne_some hone'
      obtain ⟨r, hr, hagree⟩ := (hs list).exists_left hr'
      rw [← h.selects_agree s s' hc hagree, Store.selectOne_none hone hr] at hsel
      cases hsel
  | some r =>
    obtain ⟨hr, hsel, hmin⟩ := Store.selectOne_some hone
    obtain ⟨o', ho', hagree⟩ := (hs list).exists_right hr
    rw [h.selects_agree s s' hc hagree] at hsel
    cases hone' : s'.selectOne list c with
    | none =>
      rw [Store.selectOne_none hone' ho'] at hsel
      cases hsel
    | some r' =>
      obtain ⟨hr', hsel', hmin'⟩ := Store.selectOne_some hone'
      obtain ⟨o, ho, hagree'⟩ := (hs list).exists_left hr'
      rw [← h.selects_agree s s' hc hagree'] at hsel'
      have hle := hmin o ho hsel'
      have hle' := hmin' o' ho' hsel
      rw [← hagree.1] at hle'
      rw [hagree'.1] at hle
      have hid : r'.id = r.id := le_antisymm hle' hle
      simp only [Option.map_some, hid]

end Database

end RecordSchema
