import RecordSchema.Proofs.Store.Rows

/-!
# Key columns

A row holds a key when its key column has the id of another record. The
lemmas say which keys are held after a key column is emptied or written
in some rows, and that no other column changes. A key that moves to a
row is first taken from whoever holds it, so a column that holds no key
twice never does.
-/

namespace RecordSchema

namespace Store

variable {s : Store} {list column : String} {q : Row → Bool} {x y key row : Int}

/-- Whether the row of an id holds a key in a column. -/
def HasKey (s : Store) (list column : String) (x y : Int) : Prop :=
  ∃ r ∈ s.rows list, r.id = x ∧ r.cell column = .int y

/-- Whether no two rows hold the same key in a column. -/
def HoldsOnce (s : Store) (list column : String) : Prop :=
  ∀ x x' y, s.HasKey list column x y → s.HasKey list column x' y → x = x'

theorem HasKey.mem_ids (h : s.HasKey list column x y) : x ∈ s.ids list := by
  obtain ⟨r, hr, hid, -⟩ := h
  exact Store.mem_ids.2 ⟨r, hr, hid⟩

theorem HasKey.eq {y' : Int} (hs : s.Keyed) (h : s.HasKey list column x y)
    (h' : s.HasKey list column x y') : y = y' := by
  obtain ⟨r, hr, rfl, hcell⟩ := h
  obtain ⟨r', hr', hid, hcell'⟩ := h'
  obtain rfl := eq_of_mem_rows hs hr' hr hid
  exact Cell.int.inj (hcell.symm.trans hcell')

/-! ## Rows with a new cell -/

theorem exists_row_modifyRows {c : Cell} {other : String} {r : Row}
    (hr : r ∈ (s.modifyRows list q fun r => r.set column c).rows other) :
    ∃ o ∈ s.rows other, o.id = r.id ∧ ∀ name, r.cell name = o.cell name ∨
      (other = list ∧ name = column ∧ r.cell name = c) := by
  by_cases hother : other = list
  · subst hother
    obtain ⟨o, ho, rfl⟩ := mem_rows_modifyRows.1 hr
    refine ⟨o, ho, ?_, fun name => ?_⟩
    · split <;> rfl
    · split
      · rw [Row.cell_set]
        split
        · next hname => exact .inr ⟨rfl, hname.1, rfl⟩
        · exact .inl rfl
      · exact .inl rfl
  · rw [rows_modifyRows, if_neg hother] at hr
    exact ⟨r, hr, rfl, fun _ => .inl rfl⟩

theorem hasKey_modifyRows {c : Cell} (hid : column ≠ "id") :
    (s.modifyRows list q fun r => r.set column c).HasKey list column x y ↔
      ∃ r ∈ s.rows list, r.id = x ∧ (if q r then c else r.cell column) = .int y := by
  constructor
  · rintro ⟨r, hr, hx, hcell⟩
    obtain ⟨o, ho, rfl⟩ := mem_rows_modifyRows.1 hr
    refine ⟨o, ho, ?_⟩
    by_cases hq : q o = true
    · rw [if_pos hq] at hx hcell
      rw [if_pos hq]
      exact ⟨hx, by rw [← hcell, Row.cell_set_self o hid]⟩
    · rw [if_neg hq] at hx hcell
      rw [if_neg hq]
      exact ⟨hx, hcell⟩
  · rintro ⟨o, ho, hx, hcell⟩
    refine ⟨_, mem_rows_modifyRows.2 ⟨o, ho, rfl⟩, ?_⟩
    by_cases hq : q o = true
    · rw [if_pos hq] at hcell ⊢
      exact ⟨hx, by rw [Row.cell_set_self o hid, hcell]⟩
    · rw [if_neg hq] at hcell ⊢
      exact ⟨hx, hcell⟩

theorem hasKey_modifyRows_of_ne {c : Cell} {other name : String}
    (h : other ≠ list ∨ name ≠ column) :
    (s.modifyRows list q fun r => r.set column c).HasKey other name x y ↔
      s.HasKey other name x y := by
  by_cases hother : other = list
  · subst hother
    have hname : name ≠ column := h.resolve_left fun hne => hne rfl
    constructor
    · rintro ⟨r, hr, hx, hcell⟩
      obtain ⟨o, ho, hid, hcells⟩ := exists_row_modifyRows hr
      refine ⟨o, ho, hid.trans hx, ?_⟩
      rcases hcells name with heq | ⟨-, hname', -⟩
      · exact heq ▸ hcell
      · exact absurd hname' hname
    · rintro ⟨o, ho, hx, hcell⟩
      refine ⟨_, mem_rows_modifyRows.2 ⟨o, ho, rfl⟩, ?_⟩
      split
      · exact ⟨hx, by rw [Row.cell_set_of_ne o hname, hcell]⟩
      · exact ⟨hx, hcell⟩
  · unfold HasKey
    rw [rows_modifyRows, if_neg hother]

/-! ## Emptying and writing -/

/-- An emptied row holds no key, and all others hold theirs. -/
theorem hasKey_clearKey (hid : column ≠ "id") {P : Prop}
    (hq : ∀ r : Row, r.id = x → r.cell column = .int y → (q r = true ↔ P)) :
    (s.clearKey list column q).HasKey list column x y ↔ s.HasKey list column x y ∧ ¬ P := by
  rw [clearKey, hasKey_modifyRows hid]
  constructor
  · rintro ⟨r, hr, hx, hcell⟩
    split at hcell
    · cases hcell
    · next hnot => exact ⟨⟨r, hr, hx, hcell⟩, fun hP => hnot ((hq r hx hcell).2 hP)⟩
  · rintro ⟨⟨r, hr, hx, hcell⟩, hP⟩
    refine ⟨r, hr, hx, ?_⟩
    rw [if_neg fun hqr => hP ((hq r hx hcell).1 hqr), hcell]

/-- A written row holds the key, and all others hold theirs. -/
theorem hasKey_writeKey (hid : column ≠ "id") {P : Prop}
    (hq : ∀ r : Row, r.id = x → (q r = true ↔ P)) :
    (s.writeKey list column key q).HasKey list column x y ↔
      (P ∧ y = key ∧ x ∈ s.ids list) ∨ (¬ P ∧ s.HasKey list column x y) := by
  rw [writeKey, hasKey_modifyRows hid, mem_ids]
  constructor
  · rintro ⟨r, hr, hx, hcell⟩
    split at hcell
    · next hqr => exact .inl ⟨(hq r hx).1 hqr, (Cell.int.inj hcell).symm, r, hr, hx⟩
    · next hqr => exact .inr ⟨fun hP => hqr ((hq r hx).2 hP), r, hr, hx, hcell⟩
  · rintro (⟨hP, rfl, r, hr, hx⟩ | ⟨hP, r, hr, hx, hcell⟩)
    · exact ⟨r, hr, hx, by rw [if_pos ((hq r hx).2 hP)]⟩
    · exact ⟨r, hr, hx, by rw [if_neg fun hqr => hP ((hq r hx).1 hqr), hcell]⟩

theorem ids_writeKey (s : Store) (list column : String) (key : Int) (q : Row → Bool)
    (other : String) : (s.writeKey list column key q).ids other = s.ids other :=
  ids_modifyRows s list other fun _ _ _ => rfl

theorem ids_clearKey (s : Store) (list column : String) (q : Row → Bool) (other : String) :
    (s.clearKey list column q).ids other = s.ids other :=
  ids_modifyRows s list other fun _ _ _ => rfl

/-! ## Moving a key -/

/-- Gives a key to a row and takes it from all others. -/
def moveKey (s : Store) (list column : String) (row key : Int) : Store :=
  (s.clearKey list column fun r => (r.cell column).isKey key).writeKey list column key
    fun r => r.id == row

theorem ids_moveKey (s : Store) (list column : String) (row key : Int) (other : String) :
    (s.moveKey list column row key).ids other = s.ids other := by
  rw [moveKey, ids_writeKey, ids_clearKey]

/-- The row holds the key that was moved to it and no other row does. -/
theorem hasKey_moveKey (hid : column ≠ "id") :
    (s.moveKey list column row key).HasKey list column x y ↔
      (x = row ∧ y = key ∧ row ∈ s.ids list) ∨
        (x ≠ row ∧ y ≠ key ∧ s.HasKey list column x y) := by
  have hcleared : (s.clearKey list column fun r => (r.cell column).isKey key).HasKey list column
      x y ↔ s.HasKey list column x y ∧ ¬ y = key :=
    hasKey_clearKey hid fun r _ hcell => by rw [Cell.isKey_iff, hcell, Cell.int.injEq]
  rw [moveKey, hasKey_writeKey hid fun r hx => by rw [beq_iff_eq, hx], hcleared, ids_clearKey]
  constructor
  · rintro (⟨rfl, hy, hids⟩ | ⟨hx, hkey, hy⟩)
    · exact .inl ⟨rfl, hy, hids⟩
    · exact .inr ⟨hx, hy, hkey⟩
  · rintro (⟨rfl, hy, hids⟩ | ⟨hx, hy, hkey⟩)
    · exact .inl ⟨rfl, hy, hids⟩
    · exact .inr ⟨hx, hkey, hy⟩

theorem HoldsOnce.clearKey (h : s.HoldsOnce list column) (hid : column ≠ "id") (q : Row → Bool) :
    (s.clearKey list column q).HoldsOnce list column := by
  have hkept {x y : Int} (hkey : (s.clearKey list column q).HasKey list column x y) :
      s.HasKey list column x y := by
    obtain ⟨r, hr, hx, hcell⟩ := (hasKey_modifyRows hid).1 hkey
    split at hcell
    · cases hcell
    · exact ⟨r, hr, hx, hcell⟩
  exact fun x x' y hx hx' => h x x' y (hkept hx) (hkept hx')

theorem HoldsOnce.moveKey (h : s.HoldsOnce list column) (hid : column ≠ "id") (row key : Int) :
    (s.moveKey list column row key).HoldsOnce list column := by
  intro x x' y hx hx'
  rw [hasKey_moveKey hid] at hx hx'
  rcases hx with ⟨rfl, rfl, -⟩ | ⟨-, hy, hx⟩
  · rcases hx' with ⟨rfl, -, -⟩ | ⟨-, hy, -⟩
    · rfl
    · exact absurd rfl hy
  · rcases hx' with ⟨-, rfl, -⟩ | ⟨-, -, hx'⟩
    · exact absurd rfl hy
    · exact h x x' y hx hx'

end Store

end RecordSchema
