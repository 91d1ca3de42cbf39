import RecordSchema.Proofs.Store.Columns
import RecordSchema.Proofs.Store.Reading
import RecordSchema.Proofs.Store.Rows

/-!
# Searching

What conditions select and how searches end. A condition on related rows
is never unknown, so its negation selects the other rows; the negation
of any other condition selects the rows of which that one is false,
which are not all of those that it does not select.

A search fails just when its filter cannot be read. `search_filter` and
what follows from it say so as equations: the outcome of a search is the
outcome of reading, with the selected rows in place of the condition.
-/

namespace RecordSchema

/-! ## Truth -/

namespace Truth

@[simp] theorem and_yes (t : Truth) : t.and .yes = t := by
  cases t <;> rfl

@[simp] theorem or_no (t : Truth) : t.or .no = t := by
  cases t <;> rfl

@[simp] theorem isYes_ofBool (b : Bool) : (ofBool b).isYes = b := by
  cases b <;> rfl

@[simp] theorem isYes_not_ofBool (b : Bool) : (ofBool b).not.isYes = !b := by
  cases b <;> rfl

theorem isYes_iff {t : Truth} : t.isYes = true ↔ t = .yes := by
  cases t <;> simp [isYes]

theorem isYes_not_iff {t : Truth} : t.not.isYes = true ↔ t = .no := by
  cases t <;> simp [isYes, not]

end Truth

/-! ## What conditions select -/

namespace Condition

variable (s : Store) (r : Row) (p : RelationPlan) (c : Condition)

@[simp] theorem selects_all_nil : (all []).selects s r = true := rfl

@[simp] theorem selects_all_singleton : (all [c]).selects s r = c.selects s r := by
  simp only [selects, eval, evalAll, Truth.and_yes]

@[simp] theorem selects_not_any_singleton :
    (not (any [c])).selects s r = (not c).selects s r := by
  simp only [selects, eval, evalAny, Truth.or_no]

theorem selects_related : (related p c).selects s r =
    (s.rows p.target).any fun t => s.isTied p r t && c.selects s t := by
  simp only [selects, eval, Truth.isYes_ofBool]

theorem selects_not_related : (not (related p c)).selects s r = !(related p c).selects s r := by
  simp only [selects, eval, Truth.isYes_ofBool, Truth.isYes_not_ofBool]

variable {s r c}

theorem selects_not_iff : (not c).selects s r = true ↔ c.eval s r = .no := by
  simp only [selects, eval, Truth.isYes_not_iff]

/-- No row is selected by a condition and by its negation. -/
theorem not_selects_not (h : c.selects s r = true) : (not c).selects s r = false := by
  rw [← Bool.not_eq_true, selects_not_iff, Truth.isYes_iff.1 h]
  exact nofun

end Condition

/-! ## Outcomes of readings -/

namespace Reading

variable {α β : Type}

theorem liftM_ok (a : α) : (liftM (Except.ok a : Except Fault α) : Reading α) = pure a := rfl

/-- What is done to the result of a reading is done to its outcome. -/
theorem settle_map (f : α → β) (x : Reading α) : (f <$> x).settle = x.settle.map f := by
  simp only [settle, StateT.run_map]
  cases x.run [] with
  | error e => rfl
  | ok r =>
    obtain ⟨a, faults⟩ := r
    cases faults with
    | nil => rfl
    | cons f fs =>
      simp only [Functor.map, Except.map, bind, Except.bind]
      cases (f :: fs).find? isEarly <;> rfl

/-- A reading without faults can be settled again. -/
theorem settle_run {x : Reading α} {r : α × List Fault} (h : x.run [] = .ok r) :
    settle (fun _ => .ok r) = x.settle := by
  simp only [settle, h]
  rfl

end Reading

/-! ## Outcomes of searches -/

namespace Database

variable {db : Database} {list field : String} {t : TableLayout} {p : RelationPlan}

theorem search_filter (s : Store) (among : Row → Bool) (filter : Value) :
    db.search s list among { filter } =
      (Filter.condition db list filter).settle.map fun c => s.select list among c [] := by
  simp only [search]
  cases hrun : (Filter.condition db list filter).run [] with
  | error e => simp only [Reading.settle, hrun]; rfl
  | ok r =>
    change (do
      let c ← Reading.settle (fun _ => .ok r)
      _) = _
    rw [Reading.settle_run hrun]
    cases (Filter.condition db list filter).settle <;> rfl

/-- A search with a filter alone yields the rows of which its condition is true. -/
theorem findMany_filter (ht : db.table list = .ok t) (s : Store) (filter : Value) :
    db.findMany s list { filter } =
      (Filter.condition db list filter).settle.map fun c => s.select list (fun _ => true) c [] := by
  rw [findMany, ht]
  exact search_filter s (fun _ => true) filter

theorem findRelated_filter (hp : db.plan list field = .ok p) (s : Store) (i : Int) (filter : Value) :
    db.findRelated s list field i { filter } = (Filter.condition db p.target filter).settle.map
      fun c => s.select p.target (s.isReached p i) c [] := by
  rw [findRelated, hp]
  exact search_filter s (s.isReached p i) filter

theorem countRelated_filter (hp : db.plan list field = .ok p) (s : Store) (i : Int)
    (filter : Value) :
    db.countRelated s list field i filter = (Filter.condition db p.target filter).settle.map
      fun c => s.count p.target (s.isReached p i) c := by
  rw [countRelated, hp]
  change db.tally s p.target (s.isReached p i) filter = _
  rw [tally]
  cases (Filter.condition db p.target filter).settle <;> rfl

end Database

/-! ## Selected rows -/

namespace Store

variable {s : Store} {list : String} {among : Row → Bool} {c : Condition} {order : List RowOrder}

theorem mem_select {r : Row} : r ∈ s.select list among c order ↔
    r ∈ s.rows list ∧ among r = true ∧ c.selects s r = true := by
  rw [select, List.mem_mergeSort, List.mem_filter, Bool.and_eq_true]

theorem select_perm : (s.select list among c order).Perm
    ((s.rows list).filter fun r => among r && c.selects s r) :=
  List.mergeSort_perm _ _

/-- No row is selected twice. -/
theorem select_ids_nodup (hs : s.Keyed) : ((s.select list among c order).map (·.id)).Nodup :=
  (select_perm.map _).nodup_iff.2 ((hs list).sublist (List.filter_sublist.map _))

/-- Nothing is counted among certain rows when none of them is selected. -/
theorem count_eq_zero_iff_notMem : s.count list among c = 0 ↔
    ∀ t ∈ s.select list among (.all []) [], t ∉ s.select list (fun _ => true) c [] := by
  rw [count, List.length_eq_zero_iff, List.filter_eq_nil_iff]
  simp only [mem_select, Condition.selects_all_nil, Bool.and_eq_true, not_and, and_true, true_and]
  exact ⟨fun h t ht _ => h t ht.1 ht.2, fun h t ht hamong => h t ⟨ht, hamong⟩ ht⟩

theorem length_select : (s.select list among c order).length = s.count list among c :=
  List.length_mergeSort _

theorem select_eq_nil : s.select list among c order = [] ↔ s.count list among c = 0 := by
  rw [← List.length_eq_zero_iff, length_select]

end Store

end RecordSchema
