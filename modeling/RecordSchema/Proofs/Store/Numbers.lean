import RecordSchema.Proofs.Store.Writes

/-!
# Cells hold numbers

What is not a number compares with nothing, so a column that held it
would have no order. No cell that is written holds it: storage takes
nothing in its place (`Cell.ofBinary`), whether a value is bound to a
column, brought to the kind of the column or filled in by an expression.
So every row that is inserted can be ordered (`Database.insert_isOrdered`),
and by a column that had an order before a row was changed the changed row
can be ordered as well (`Database.changed_isNaN`).
-/

namespace RecordSchema

namespace Cell

/-- Whether a cell holds what is not a number. -/
def isNaN : Cell → Bool
  | .real .nan => true
  | _ => false

theorem isNaN_ofBinary (x : Binary64) : (ofBinary x).isNaN = false := by
  match x with
  | .nan => rfl
  | .infinity _ => rfl
  | .finite _ 0 _ => rfl
  | .finite _ (_ + 1) _ => rfl

theorem isNaN_ofValue {v : Value} {c : Cell} (h : ofValue v = .ok c) : c.isNaN = false := by
  unfold ofValue at h
  split at h
  · cases h
    rfl
  · cases h
    rfl
  · split at h <;> cases h
    rfl
  · cases h
    exact isNaN_ofBinary _
  · cases h
    rfl
  · cases h
    rfl
  · cases h

theorem isNaN_binary {v : Value} {c : Cell} (h : binary v = .ok c) : c.isNaN = false := by
  unfold binary at h
  split at h
  · cases h
    rfl
  · split at h
    · cases h
      exact isNaN_ofBinary _
    · cases h

theorem isNaN_ofJson (v : Value) : (ofJson v).isNaN = false := by
  unfold ofJson
  split
  · split
    · rfl
    · exact isNaN_ofBinary _
  · split
    · split <;> rfl
    · rfl
  · rfl

end Cell

namespace ColumnType

theorem isNaN_settle (t : ColumnType) {c : Cell} (h : c.isNaN = false) :
    (t.settle c).isNaN = false := by
  unfold settle
  split
  · split
    · rfl
    · rfl
    · exact h
  · -- Numerals become numbers first; what follows only sees the number.
    extract_lets number
    have hnumber : number.isNaN = false := by
      unfold number
      split
      · split
        · exact Cell.isNaN_ofBinary _
        · exact h
      · exact h
    clear_value number
    split
    · exact Cell.isNaN_ofBinary _
    · exact hnumber
    · split
      · split
        · rfl
        · exact hnumber
      · exact hnumber
    · exact hnumber

theorem isNaN_map_settle {t : ColumnType} {x : Except Fault Cell}
    (hx : ∀ c, x = .ok c → c.isNaN = false) {c : Cell} (h : x.map t.settle = .ok c) :
    c.isNaN = false := by
  obtain ⟨c', hc', rfl⟩ := Except.map_eq_ok.1 h
  exact t.isNaN_settle (hx c' hc')

/-- Whatever a column takes for a value can be ordered. -/
theorem isNaN_bind {t : ColumnType} {v : Value} {c : Cell} (h : t.bind v = .ok c) :
    c.isNaN = false := by
  cases t with
  | string => exact isNaN_map_settle (fun _ => Cell.isNaN_ofValue) h
  | text => exact isNaN_map_settle (fun _ => Cell.isNaN_ofValue) h
  | integer => exact isNaN_map_settle (fun _ => Cell.isNaN_ofValue) h
  | bigInteger => exact isNaN_map_settle (fun _ => Cell.isNaN_ofValue) h
  | float => exact isNaN_map_settle (fun _ => Cell.isNaN_binary) h
  | numeric p => exact isNaN_map_settle (fun _ => Cell.isNaN_binary) h
  | boolean =>
    simp only [bind] at h
    split at h
    · cases h
      rfl
    · split at h
      · cases h
        rfl
      · split at h <;> cases h
        rfl
  | dateTime =>
    simp only [bind] at h
    split at h <;> cases h <;> rfl
  | json =>
    simp only [bind] at h
    split at h
    · cases h
      exact Cell.isNaN_ofJson _
    · cases h
  | enum name values native =>
    simp only [bind] at h
    split at h
    · cases h
      rfl
    · split at h <;> cases h
      rfl
    · cases h

/-- Whatever a column is compared with can be ordered. -/
theorem isNaN_operand {t : ColumnType} {v : Value} {c : Cell} (h : t.operand v = .ok c) :
    c.isNaN = false := by
  unfold operand at h
  split at h
  · exact isNaN_bind h
  · cases h
    exact t.isNaN_settle rfl
  · cases h
    exact t.isNaN_settle rfl
  · exact isNaN_map_settle (fun _ => Cell.isNaN_ofValue) h
  · cases h
    exact t.isNaN_settle (Cell.isNaN_ofBinary _)
  · exact isNaN_map_settle (fun _ => Cell.isNaN_binary) h
  · cases h
    rfl
  · exact isNaN_bind h

end ColumnType

namespace Expression

theorem isNaN_numberCell (d : Decimal) : (numberCell d).isNaN = false := by
  unfold numberCell
  split
  · split
    · rfl
    · exact Cell.isNaN_ofBinary _
  · cases d.toBinary? with
    | none => rfl
    | some x => exact Cell.isNaN_ofBinary x

theorem isNaN_textCell (t : ColumnType) (s : String) : (textCell t s).isNaN = false := by
  unfold textCell
  split
  · split <;> rfl
  · split
    · exact Cell.isNaN_ofJson _
    · rfl
  · rfl

theorem isNaN_cell (t : ColumnType) (now : DateTime) (e : String) : (cell t now e).isNaN = false := by
  unfold cell
  refine t.isNaN_settle ?_
  split
  · rfl
  · exact isNaN_numberCell _
  all_goals exact isNaN_textCell t _

end Expression

namespace TableLayout

theorem bindAll_isNaN {given : List (String × Value)} {columns : List Column}
    {faults faults' : List Fault} {cells : List (String × Cell)}
    (h : (bindAll given columns).run faults = .ok (cells, faults')) :
    ∀ e ∈ cells, e.2.isNaN = false := by
  induction columns generalizing faults faults' cells with
  | nil =>
    cases h
    exact nofun
  | cons c r ih =>
    unfold bindAll at h
    split at h
    · simp only [Reading.bind_run, Reading.pure_run] at h
      obtain ⟨cell, _, hcell, rest, _, hrest, rfl, -⟩ := h
      refine List.forall_mem_cons.2 ⟨?_, ih hrest⟩
      -- A fault puts null in the place of the cell.
      unfold Reading.operand at hcell
      split at hcell
      · cases hcell
        exact ColumnType.isNaN_bind ‹_›
      · cases hcell
        rfl
    · exact ih h

theorem bind_isNaN {t : TableLayout} {given : List (String × Value)} {cells : List (String × Cell)}
    (h : t.bind given = .ok cells) : ∀ e ∈ cells, e.2.isNaN = false :=
  bindAll_isNaN (Reading.settle_ok h)

theorem filled_isNaN {t : TableLayout} {now : DateTime} {given : List (String × Cell)} :
    ∀ e ∈ t.filled now given, e.2.isNaN = false := by
  intro e he
  obtain ⟨c, -, he⟩ := List.mem_filterMap.1 he
  split at he
  · next ex _ =>
    by_cases hgiven : given.any (·.1 == c.name)
    · rw [if_pos hgiven] at he
      cases he
    · rw [if_neg hgiven] at he
      rw [← Option.some.inj he]
      exact Expression.isNaN_cell c.type now ex
  · cases he

end TableLayout

/-! ## Rows -/

namespace Row

theorem isNaN_setAll {r : Row} {column : String} (hr : (r.cell column).isNaN = false)
    {cells : List (String × Cell)} (h : ∀ e ∈ cells, e.2.isNaN = false) :
    ((r.setAll cells).cell column).isNaN = false := by
  induction cells generalizing r with
  | nil => exact hr
  | cons e rest ih =>
    obtain ⟨he, hrest⟩ := List.forall_mem_cons.1 h
    refine ih (r := r.set e.1 e.2) ?_ hrest
    rw [Row.cell_set]
    split
    · exact he
    · exact hr

theorem isNaN_withId {r : Row} {column : String} (hr : (r.cell column).isNaN = false) (id : Int) :
    (Row.cell { r with id } column).isNaN = false := by
  by_cases hid : column = "id"
  · rw [Row.cell, if_pos hid]
    rfl
  · rw [Row.cell, if_neg hid] at hr ⊢
    exact hr

/-- Whether every cell of a row can be ordered. -/
def IsOrdered (r : Row) : Prop :=
  ∀ column, (r.cell column).isNaN = false

theorem IsOrdered.of_cells {r : Row} (h : ∀ e ∈ r.cells, e.2.isNaN = false) : r.IsOrdered := by
  intro column
  unfold cell
  split
  · rfl
  · cases hcell : r.cells.lookup column with
    | none => rfl
    | some c => exact h _ (Keys.mem_of_lookup hcell)

end Row

namespace Database

variable {db : Database} {s s' : Store} {list : String} {data : Value.Entries}

/-- A new row can be ordered. -/
theorem insert_isOrdered {now : DateTime} {row : Row}
    (h : db.insert s now list data = .ok (row, s')) : row.IsOrdered := by
  simp only [insert, Except.bind_eq_ok] at h
  obtain ⟨t, -, given, -, cells, hcells, id, -, ⟨⟩, -, h⟩ := h
  obtain ⟨rfl, -⟩ := Prod.mk.inj (Except.pure_eq_ok.1 h)
  refine .of_cells fun e he => ?_
  rcases List.mem_append.1 he with he | he
  · exact TableLayout.bind_isNaN hcells e (List.mem_filter.1 he).1
  · exact TableLayout.filled_isNaN e he

/-- A column that could be ordered can be ordered in the changed row. -/
theorem changed_isNaN {r r' : Row} {cells : List (String × Cell)}
    (hcells : ∀ e ∈ cells, e.2.isNaN = false) (h : changed r cells = .ok r') {column : String}
    (hr : (r.cell column).isNaN = false) : (r'.cell column).isNaN = false := by
  have hset : ((r.setAll (TableLayout.withoutId cells)).cell column).isNaN = false :=
    Row.isNaN_setAll hr fun e he => hcells e (List.mem_filter.1 he).1
  unfold changed at h
  split at h
  · cases h
    exact hset
  · cases h
  · obtain ⟨id, -, h⟩ := Except.bind_eq_ok.1 h
    cases h
    exact Row.isNaN_withId hset _

end Database

end RecordSchema
