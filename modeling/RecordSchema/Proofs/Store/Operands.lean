import RecordSchema.Proofs.Store.Numbers

/-!
# Operands are something

A comparison with nothing is unknown. Storage takes nothing for null and
in the place of what is not a number; of every other value that a column
can be compared with, the operand is something (`ColumnType.operand_set`).
-/

namespace RecordSchema

/-- Whether a value is not a number, exact or binary. -/
def Value.isNaN : Value → Bool
  | .float .nan => true
  | .decimal d => d.isNan
  | _ => false

namespace Binary64

theorem roundRatio_ne_nan (negative : Bool) (num den : Nat) :
    roundRatio negative num den ≠ .nan := by
  unfold roundRatio
  split
  · nofun
  · extract_lets e m
    split
    split
    · nofun
    · split <;> nofun

theorem ofScaled_ne_nan (negative : Bool) (c : Nat) (e : Int) : ofScaled negative c e ≠ .nan := by
  unfold ofScaled
  split
  · nofun
  · extract_lets magnitude
    split
    · nofun
    · split
      · nofun
      · split <;> exact roundRatio_ne_nan _ _ _

end Binary64

theorem Decimal.toBinary?_ne_nan {d : Decimal} {x : Binary64} (hd : d.isNan = false)
    (h : d.toBinary? = some x) : x ≠ .nan := by
  cases d with
  | finite s c e =>
    cases h
    exact Binary64.ofScaled_ne_nan s c e
  | infinity s =>
    cases h
    nofun
  | nan => cases hd

namespace Cell

theorem ofBinary_set {x : Binary64} (hx : x ≠ .nan) : (ofBinary x).isNull = false := by
  match x with
  | .nan => exact absurd rfl hx
  | .infinity _ => rfl
  | .finite _ 0 _ => rfl
  | .finite _ (_ + 1) _ => rfl

theorem fold_isNull (c : Cell) : c.fold.isNull = c.isNull := by
  cases c <;> rfl

theorem ofJson_set (v : Value) : (ofJson v).isNull = false := by
  unfold ofJson
  split
  · split
    · rfl
    · exact ofBinary_set (Binary64.roundRatio_ne_nan _ _ _)
  · split
    · split <;> rfl
    · rfl
  · rfl

variable {v : Value} {c : Cell}

theorem ofValue_set (hnull : v.isNull = false) (hnan : v.isNaN = false) (h : ofValue v = .ok c) :
    c.isNull = false := by
  cases v with
  | null => cases hnull
  | int n =>
    simp only [ofValue] at h
    split at h <;> cases h
    rfl
  | float x =>
    cases h
    refine ofBinary_set ?_
    rintro rfl
    cases hnan
  | bool | text | dateTime =>
    cases h
    rfl
  | _ => cases h

theorem binary_set {d : Decimal} (hnan : d.isNan = false) (h : binary (.decimal d) = .ok c) :
    c.isNull = false := by
  simp only [binary, binaryOf?] at h
  split at h
  · next x hx =>
    cases h
    exact ofBinary_set (Decimal.toBinary?_ne_nan hnan hx)
  · cases h

end Cell

namespace ColumnType

variable {t : ColumnType} {v : Value} {c : Cell}

theorem settle_set (t : ColumnType) (h : c.isNull = false) : (t.settle c).isNull = false := by
  unfold settle
  split
  · split
    · rfl
    · rfl
    · exact h
  · extract_lets number
    have hnumber : number.isNull = false := by
      unfold number
      split
      · split
        · exact Cell.ofBinary_set nofun
        · exact h
      · exact h
    clear_value number
    split
    · exact Cell.ofBinary_set (Binary64.roundRatio_ne_nan _ _ _)
    · exact hnumber
    · split
      · split
        · rfl
        · exact hnumber
      · exact hnumber
    · exact hnumber

theorem map_settle_set {x : Except Fault Cell} (hx : ∀ c, x = .ok c → c.isNull = false)
    (h : x.map t.settle = .ok c) : c.isNull = false := by
  obtain ⟨c', hc', rfl⟩ := Except.map_eq_ok.1 h
  exact t.settle_set (hx c' hc')

/-- What a column takes for a value that stands for no number. -/
theorem bind_set (hnull : v.isNull = false) (hnan : v.isNaN = false)
    (hnumber : Cell.binaryOf? v = none) (h : t.bind v = .ok c) : c.isNull = false := by
  have hbinary (c : Cell) : Cell.binary v ≠ .ok c := by
    unfold Cell.binary
    split
    · cases hnull
    · rw [hnumber]
      nofun
  cases t with
  | string | text | integer | bigInteger =>
    exact map_settle_set (fun _ => Cell.ofValue_set hnull hnan) h
  | float | numeric => exact map_settle_set (fun c hc => absurd hc (hbinary c)) h
  | boolean =>
    simp only [bind, hnull, Bool.false_eq_true, if_false] at h
    split at h
    · cases h
      rfl
    · split at h <;> cases h
      rfl
  | dateTime =>
    simp only [bind] at h
    split at h <;> cases h
    · cases hnull
    · rfl
  | json =>
    simp only [bind] at h
    split at h <;> cases h
    exact Cell.ofJson_set _
  | enum =>
    simp only [bind] at h
    split at h
    · cases hnull
    · split at h <;> cases h
      rfl
    · cases h

theorem bind_enum_text {name s : String} {values : List String} {native : Bool}
    (h : (ColumnType.enum name values native).bind (.text s) = .ok c) : c = .text s := by
  simp only [bind] at h
  split at h <;> cases h
  rfl

/-- What a column is compared with is something, unless it is null or not a number. -/
theorem operand_set (hnull : v.isNull = false) (hnan : v.isNaN = false) (h : t.operand v = .ok c) :
    c.isNull = false := by
  unfold operand at h
  split at h
  · rw [bind_enum_text h]
    rfl
  · cases h
    exact t.settle_set rfl
  · cases h
    exact t.settle_set rfl
  · exact map_settle_set (fun _ => Cell.ofValue_set hnull hnan) h
  · cases h
    refine t.settle_set (Cell.ofBinary_set ?_)
    rintro rfl
    cases hnan
  · exact map_settle_set (fun _ => Cell.binary_set hnan) h
  · cases h
    rfl
  · next htext hbool hint hfloat hdecimal _ _ =>
    have hnumber : Cell.binaryOf? v = none := by
      cases v with
      | text s => exact (htext s rfl).elim
      | bool b => exact (hbool b rfl).elim
      | int n => exact (hint n rfl).elim
      | float x => exact (hfloat x rfl).elim
      | decimal d => exact (hdecimal d rfl).elim
      | _ => rfl
    exact bind_set hnull hnan hnumber h

end ColumnType

end RecordSchema
