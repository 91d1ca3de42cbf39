import RecordSchema.Proofs.Field.Default
import RecordSchema.Proofs.Lists
import RecordSchema.Store.Cell

/-!
# Values through columns

What a column takes in a write it gives back when it is read, up to the
form of the value: a date loses its offset, an exact number its places,
a tuple becomes a list. The value that comes back has the shape of
output, unless the column holds nothing (`Storage.gives_of_bind`). That
exception cannot be left out: a NaN is kept as nothing.

A column in many mode keeps its list as a JSON value, so it is enough
that a value of the kind keeps its kind in the normal form of its text.
-/

namespace RecordSchema

/-! ## Single values -/

theorem Cell.ofBinary_cases (x : Binary64) : ofBinary x = .null ∨ ∃ y, ofBinary x = .real y := by
  unfold ofBinary
  split
  · exact .inl rfl
  · exact .inr ⟨_, rfl⟩
  · exact .inr ⟨_, rfl⟩

theorem Cell.binary_cases {v : Value} {c : Cell} (h : binary v = .ok c) :
    c = .null ∨ ∃ x, c = .real x := by
  unfold binary at h
  split at h
  · cases h
    exact .inl rfl
  · split at h <;> cases h
    exact ofBinary_cases _

/-- Whatever JSON value a cell is made of, a column of JSON values reads one. -/
theorem ColumnType.read_ofJson {v : Value} (h : v.isJson = true) :
    (ColumnType.json.read (.ofJson v)).isJson = true := by
  unfold Cell.ofJson
  split
  · split
    · rfl
    · rcases Cell.ofBinary_cases _ with hx | ⟨x, hx⟩ <;> rw [hx] <;> rfl
  · split
    · split <;> rfl
    · rfl
  · exact h

theorem ColumnType.settle_numeric_cases (p : Option (Nat × Nat)) (x : Binary64) :
    (∃ n, (ColumnType.numeric p).settle (.real x) = .int n) ∨
      ∃ y, (ColumnType.numeric p).settle (.real x) = .real y := by
  rw [settle, if_neg (by simp [isTextual])]
  dsimp only
  split
  · split
    · exact .inl ⟨_, rfl⟩
    · exact .inr ⟨_, rfl⟩
  · exact .inr ⟨_, rfl⟩

/-- A text comes back from either textual column as one. -/
theorem ColumnType.admits_text_of_bind {t : ColumnType} {v : Value} {c : Cell}
    (ht : t = .text ∨ t = .string) (hv : Scalar.text.admits v = true ∨ v = .null)
    (h : t.bind v = .ok c) : c = .null ∨ Scalar.text.admits (t.read c) = true := by
  rcases hv with hv | rfl
  · refine .inr ?_
    rcases ht with rfl | rfl <;> cases v <;> cases hv <;> cases h <;> rfl
  · refine .inl ?_
    rcases ht with rfl | rfl <;> cases h <;> rfl

namespace ScalarField

variable {f : ScalarField} {v : Value} {c : Cell}

/-- A value of the scalar type, or null, comes back from its column as one. -/
theorem admits_of_bind (hv : f.scalar.admits v = true ∨ v = .null)
    (h : (Column.scalarType f).bind v = .ok c) :
    c = .null ∨ f.scalar.admits ((Column.scalarType f).read c) = true := by
  unfold Column.scalarType at h ⊢
  cases hs : f.scalar <;> rw [hs] at hv h <;> dsimp only at h ⊢
  case text =>
    -- The native type of a text field may ask for either textual column.
    split at h
    · next htext =>
      rw [if_pos htext]
      exact ColumnType.admits_text_of_bind (.inl rfl) hv h
    · next htext =>
      rw [if_neg htext]
      exact ColumnType.admits_text_of_bind (.inr rfl) hv h
  case boolean =>
    simp only [ColumnType.bind] at h
    split at h
    · cases h
      exact .inl rfl
    · split at h
      · cases h
        exact .inr rfl
      · split at h <;> cases h
        exact .inr rfl
  case int | bigInt =>
    obtain ⟨m, hm, rfl⟩ := Except.map_eq_ok.1 h
    rcases hv with hv | rfl
    · cases v <;> cases hv
      simp only [Cell.ofValue] at hm
      split at hm <;> cases hm
      exact .inr rfl
    · cases hm
      exact .inl rfl
  case float =>
    obtain ⟨m, hm, rfl⟩ := Except.map_eq_ok.1 h
    rcases Cell.binary_cases hm with rfl | ⟨x, rfl⟩
    · exact .inl rfl
    · exact .inr rfl
  case dateTime =>
    simp only [ColumnType.bind] at h
    split at h <;> cases h
    · exact .inl rfl
    · exact .inr rfl
  case json =>
    simp only [ColumnType.bind] at h
    split at h
    · next w hw =>
      cases h
      exact .inr (ColumnType.read_ofJson (Value.normal?_isJson hw))
    · cases h
  case decimal =>
    obtain ⟨m, hm, rfl⟩ := Except.map_eq_ok.1 h
    rcases Cell.binary_cases hm with rfl | ⟨x, rfl⟩
    · exact .inl rfl
    · rcases ColumnType.settle_numeric_cases (f.nativeType.bind Column.precisionOf?) x with
        ⟨n, hn⟩ | ⟨y, hy⟩
      · rw [hn]
        exact .inr rfl
      · rw [hy]
        exact .inr rfl

end ScalarField

/-! ## Lists of values -/

/-- The normal form of a value of a scalar type is one, if it has any. -/
theorem Scalar.admits_of_normal? {s : Scalar} {v w : Value} (hv : s.admits v = true)
    (hw : v.normal? = some w) : s.admits w = true := by
  cases s with
  | json => exact Value.normal?_isJson hw
  | _ => cases v <;> cases hv <;> cases hw <;> rfl

namespace Storage

variable {s : Storage} {value : Shape} {v w : Value} {c : Cell}

theorem conforms_of_normal? (hvalue : s.columnShape? = some value) (hv : value.conforms v = true)
    (hw : v.normal? = some w) : value.conforms w = true := by
  cases s with
  | scalar f =>
    cases hvalue
    exact Scalar.admits_of_normal? hv hw
  | enum f =>
    cases hvalue
    obtain ⟨t, -, rfl⟩ := Shape.exists_text_of_conforms hv
    cases hw
    exact hv
  | _ => cases hvalue

/-- A list of values comes back from a column of JSON values as one. -/
theorem conforms_of_bind_json (hvalue : s.columnShape? = some value)
    (hv : (Shape.listOf value).conforms v = true) (h : ColumnType.json.bind v = .ok c) :
    (Shape.listOf value).conforms (ColumnType.json.read c) = true := by
  obtain ⟨vs, hvs, hall⟩ := Shape.conforms_listOf.1 hv
  simp only [ColumnType.bind] at h
  split at h
  · next w hw =>
    cases h
    obtain ⟨ws, hws, rfl⟩ : ∃ ws, Value.normalAll? vs = some ws ∧ w = .list ws := by
      cases v <;> cases hvs <;> obtain ⟨ws, hws, rfl⟩ := Option.map_eq_some_iff.1 hw <;>
        exact ⟨ws, hws, rfl⟩
    refine Shape.conforms_listOf.2 ⟨ws, rfl, fun u hu => ?_⟩
    obtain ⟨o, ho, hou⟩ := (Value.forall₂_of_normalAll? hws).exists_left hu
    exact conforms_of_normal? hvalue (hall o ho) hou
  · cases h

/-- A single value comes back from its column as one, if the column holds anything. -/
theorem conforms_of_bind {name : String} {col : Column} (hcol : Column.ofStorage? name s = some col)
    (hvalue : s.columnShape? = some value) (hmode : s.mode? ≠ some .many)
    (hv : value.conforms v = true ∨ v = .null) (h : col.type.bind v = .ok c) :
    c = .null ∨ value.conforms (col.type.read c) = true := by
  cases s with
  | scalar f =>
    cases hcol
    cases hvalue
    have hone : f.mode ≠ .many := fun hm => hmode (congrArg some hm)
    simp only [if_neg hone] at h ⊢
    exact f.admits_of_bind hv h
  | enum f =>
    cases hcol
    cases hvalue
    have hone : f.mode ≠ .many := fun hm => hmode (congrArg some hm)
    simp only [if_neg hone, Column.enumType, ColumnType.bind] at h ⊢
    split at h
    · cases h
      exact .inl rfl
    · split at h <;> cases h
      exact .inr ‹_›
    · cases h
  | _ => cases hcol

theorem exists_kind {name : String} {col : Column} (hcol : Column.ofStorage? name s = some col) :
    ∃ value mode, s.columnShape? = some value ∧ s.mode? = some mode := by
  cases s <;> first | exact ⟨_, _, rfl, rfl⟩ | cases hcol

theorem columnShapeFor?_eq {mode : Mode} (hvalue : s.columnShape? = some value)
    (hmode : s.mode? = some mode) (op : Operation) :
    s.columnShapeFor? op = some (.ofColumn value mode op) := by
  rw [columnShapeFor?, hvalue, hmode]
  rfl

/-- A new row gives a column what it holds, but for the time in many mode. -/
theorem IsGiven.isHeld {mode : Mode} (hv : s.IsGiven v) (hp : s.problems = [])
    (hvalue : s.columnShape? = some value) (hmode : s.mode? = some mode) :
    value.IsHeld mode v ∨ mode = .many ∧ ∃ t, v = .dateTime t := by
  obtain ⟨hset, hv | ⟨hstamped, t, rfl⟩⟩ := hv
  · rw [takes, columnShapeFor?_eq hvalue hmode, Option.any_some] at hv
    exact .inl (Shape.isHeld_of_conforms (.inl rfl) hset hv)
  · cases s with
    | scalar f =>
      cases hvalue
      cases hmode
      have hscalar : f.scalar = .dateTime := by
        simpa [problems, scalarProblems, complain, show f.updatedAt = true from hstamped] using hp
      rw [hscalar]
      cases f.mode with
      | many => exact .inr ⟨rfl, t, rfl⟩
      | required => exact .inl rfl
      | nullable => exact .inl (.inl rfl)
    | _ => cases hstamped

/-- What a new row gives a column comes back as a value that the column has in output,
if it holds anything. -/
theorem gives_of_bind {name : String} {col : Column} (hp : s.problems = [])
    (hcol : Column.ofStorage? name s = some col) (hv : s.IsGiven v)
    (h : col.type.bind v = .ok c) : c = .null ∨ s.gives (col.type.read c) = true := by
  obtain ⟨value, mode, hvalue, hmode⟩ := exists_kind hcol
  rw [gives, columnShapeFor?_eq hvalue hmode, Option.any_some, Shape.conforms_ofColumn_output]
  have hheld := hv.isHeld hp hvalue hmode
  have hone (hm : mode ≠ .many) : s.mode? ≠ some .many := by simpa [hmode] using hm
  cases mode with
  | many =>
    have hjson : col.type = .json := by
      cases s <;> cases hcol <;> exact if_pos (Option.some.inj hmode)
    rw [hjson] at h ⊢
    rcases hheld with hheld | ⟨-, t, rfl⟩
    · exact .inr (conforms_of_bind_json hvalue hheld h)
    · cases h
  | required =>
    rcases hheld with hheld | ⟨⟨⟩, -⟩
    exact conforms_of_bind hcol hvalue (hone (by decide)) (.inl hheld) h
  | nullable =>
    rcases hheld with hheld | ⟨⟨⟩, -⟩
    exact (conforms_of_bind hcol hvalue (hone (by decide)) hheld h).imp_right .inl

end Storage

end RecordSchema
