import Mathlib.Data.List.Nodup
import RecordSchema.Proofs.Lists
import RecordSchema.Store.Links

/-!
# Rows and cells

What writing a cell does to a row and what changing rows does to a
store: the cell that is written has the new value and all others keep
theirs; rows keep their ids, and other lists their rows.
-/

namespace RecordSchema

/-! ## Cells of a row -/

namespace Row

theorem putCell_eq (cells : List (String × Cell)) (column : String) (c : Cell) :
    putCell cells column c = Store.putEntry cells column c := by
  induction cells with
  | nil => rfl
  | cons e r ih => rw [putCell, Store.putEntry, ih]

theorem cell_set (r : Row) (column other : String) (c : Cell) :
    (r.set column c).cell other = if other = column ∧ other ≠ "id" then c else r.cell other := by
  by_cases hid : other = "id"
  · simp [cell, set, hid]
  · simp only [cell, set, hid, putCell_eq, Store.lookup_putEntry]
    by_cases ho : other = column
    · subst ho
      simp [hid]
    · simp [ho]

theorem cell_set_self (r : Row) {column : String} (h : column ≠ "id") (c : Cell) :
    (r.set column c).cell column = c := by
  rw [cell_set, if_pos ⟨rfl, h⟩]

theorem cell_set_of_ne (r : Row) {column other : String} (h : other ≠ column) (c : Cell) :
    (r.set column c).cell other = r.cell other := by
  rw [cell_set, if_neg (fun hc => h hc.1)]

theorem setAll_id (r : Row) (cells : List (String × Cell)) : (r.setAll cells).id = r.id := by
  induction cells generalizing r with
  | nil => rfl
  | cons e rest ih => exact ih (r.set e.1 e.2)

theorem cell_setAll_of_notMem (r : Row) {cells : List (String × Cell)} {column : String}
    (h : column ∉ cells.map Prod.fst) : (r.setAll cells).cell column = r.cell column := by
  induction cells generalizing r with
  | nil => rfl
  | cons e rest ih =>
    obtain ⟨hne, hrest⟩ := not_or.1 (List.mem_cons.not.1 h)
    exact (ih (r.set e.1 e.2) hrest).trans (cell_set_of_ne r hne e.2)

/-- A row that is given a cell has it. -/
theorem cell_setAll_of_mem (r : Row) {cells : List (String × Cell)}
    (hnodup : (cells.map Prod.fst).Nodup) {column : String} {c : Cell} (hid : column ≠ "id")
    (hc : (column, c) ∈ cells) : (r.setAll cells).cell column = c := by
  induction cells generalizing r with
  | nil => cases hc
  | cons e rest ih =>
    obtain ⟨hnot, hrest⟩ := List.nodup_cons.1 hnodup
    rcases List.mem_cons.1 hc with rfl | hc
    · exact (cell_setAll_of_notMem (r.set column c) hnot).trans (cell_set_self r hid c)
    · exact ih (r.set e.1 e.2) hrest hc

theorem cell_of_notMem {id : Int} {cells : List (String × Cell)} {column : String}
    (hid : column ≠ "id") (h : column ∉ cells.map Prod.fst) :
    ({ id, cells } : Row).cell column = .null := by
  have hnone : cells.lookup column = none := Keys.lookup_eq_none_iff.2 h
  simp [cell, hid, hnone]

end Row

theorem Cell.isKey_iff {c : Cell} {id : Int} : c.isKey id = true ↔ c = .int id := by
  cases c <;> simp [Cell.isKey]

@[simp] theorem Cell.isNull_iff {c : Cell} : c.isNull = true ↔ c = .null := by
  cases c <;> simp [Cell.isNull]

/-! ## Rows of a store -/

namespace Store

/-- The ids of the rows of a list. -/
def ids (s : Store) (list : String) : List Int :=
  (s.rows list).map (·.id)

/-- Every row of a list has an id of its own. -/
def Keyed (s : Store) : Prop :=
  ∀ list, (s.ids list).Nodup

theorem mem_ids {s : Store} {list : String} {id : Int} :
    id ∈ s.ids list ↔ ∃ r ∈ s.rows list, r.id = id :=
  List.mem_map

/-- It is enough that the tables have rows with ids of their own. -/
theorem Keyed.of_tables {s : Store} (h : ∀ t ∈ s.tables, (t.2.map (·.id)).Nodup) : s.Keyed := by
  intro list
  unfold ids rows
  cases hl : s.tables.lookup list with
  | none => exact List.nodup_nil
  | some rs =>
    obtain ⟨l, r, heq, -⟩ := List.lookup_eq_some_iff.1 hl
    exact h (list, rs) (heq ▸ List.mem_append_right l List.mem_cons_self)

theorem eq_of_mem_rows {s : Store} (h : s.Keyed) {list : String} {r r' : Row}
    (hr : r ∈ s.rows list) (hr' : r' ∈ s.rows list) (hid : r.id = r'.id) : r = r' :=
  List.inj_on_of_nodup_map (h list) hr hr' hid

theorem row?_mem {s : Store} {list : String} {id : Int} {r : Row} (h : s.row? list id = some r) :
    r ∈ s.rows list ∧ r.id = id :=
  Keys.of_find?_eq_some h

theorem row?_eq_some {s : Store} (h : s.Keyed) {list : String} {r : Row}
    (hr : r ∈ s.rows list) : s.row? list r.id = some r :=
  Keys.find?_of_mem (h list) hr

@[simp] theorem ids_setRows (s : Store) (list other : String) (rs : List Row) :
    (s.setRows list rs).ids other = if other = list then rs.map (·.id) else s.ids other := by
  simp only [ids, rows_setRows]
  split <;> rfl

theorem ids_subset_append (s : Store) (list : String) (row : Row) (other : String) :
    s.ids other ⊆ (s.setRows list (s.rows list ++ [row])).ids other := by
  rw [ids_setRows]
  split
  · next heq =>
    rw [List.map_append, heq]
    exact List.subset_append_left _ _
  · exact List.Subset.refl _

/-- A row is in a list to which one was added when it was there, or is the new one. -/
theorem mem_rows_append {s : Store} {list other : String} {row r : Row}
    (hr : r ∈ (s.setRows list (s.rows list ++ [row])).rows other) :
    r ∈ s.rows other ∨ (other = list ∧ r = row) := by
  rw [rows_setRows] at hr
  split at hr
  · next heq =>
    subst heq
    exact (List.mem_append.1 hr).imp_right fun hr => ⟨rfl, List.mem_singleton.1 hr⟩
  · exact .inl hr

/-- A row with a new id is found under it. -/
theorem row?_append {s : Store} {list : String} {row : Row} (hid : row.id ∉ s.ids list) :
    (s.setRows list (s.rows list ++ [row])).row? list row.id = some row := by
  have hnone : (s.rows list).find? (fun r => r.id == row.id) = none :=
    List.find?_eq_none.2 fun r hr heq => hid (mem_ids.2 ⟨r, hr, eq_of_beq heq⟩)
  rw [row?, rows_setRows, if_pos rfl, List.find?_append, hnone, Option.none_or,
    List.find?_singleton, if_pos (beq_self_eq_true _)]

theorem Keyed.append {s : Store} (h : s.Keyed) {list : String} {row : Row}
    (hid : row.id ∉ s.ids list) : (s.setRows list (s.rows list ++ [row])).Keyed := by
  intro other
  rw [ids_setRows]
  split
  · rw [List.map_append, List.nodup_append]
    refine ⟨h list, List.nodup_singleton _, ?_⟩
    rintro x hx y hy rfl
    obtain rfl : x = row.id := List.mem_singleton.1 hy
    exact hid hx
  · exact h other

@[simp] theorem ids_setPairs (s : Store) (table list : String) (ps : List (Int × Int)) :
    (s.setPairs table ps).ids list = s.ids list := rfl

theorem rows_modifyRows (s : Store) (list other : String) (p : Row → Bool) (f : Row → Row) :
    (s.modifyRows list p f).rows other =
      if other = list then (s.rows list).map (fun r => if p r then f r else r)
      else s.rows other :=
  rows_setRows ..

@[simp] theorem pairs_modifyRows (s : Store) (list table : String) (p : Row → Bool)
    (f : Row → Row) : (s.modifyRows list p f).pairs table = s.pairs table := rfl

theorem mem_rows_modifyRows {s : Store} {list : String} {p : Row → Bool} {f : Row → Row}
    {r : Row} :
    r ∈ (s.modifyRows list p f).rows list ↔
      ∃ o ∈ s.rows list, (if p o then f o else o) = r := by
  rw [rows_modifyRows, if_pos rfl, List.mem_map]

theorem ids_modifyRows (s : Store) (list other : String) {p : Row → Bool} {f : Row → Row}
    (hf : ∀ r ∈ s.rows list, p r = true → (f r).id = r.id) :
    (s.modifyRows list p f).ids other = s.ids other := by
  simp only [ids, rows_modifyRows]
  split
  · next heq =>
    rw [heq, List.map_map]
    refine List.map_congr_left fun r hr => ?_
    simp only [Function.comp_apply]
    split
    · exact hf r hr ‹_›
    · rfl
  · rfl

end Store

end RecordSchema
