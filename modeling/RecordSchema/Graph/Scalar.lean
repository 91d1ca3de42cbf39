import RecordSchema.Fault
import RecordSchema.TypeExpr

/-!
# Scalars of the query API

What the scalar types take from a client (`ScalarType.read?`) and give
back (`ScalarType.write`). An integer fits 32 bits; larger and exact
numbers travel as texts, and dates in the ISO format.
-/

namespace RecordSchema

/-- Whether an integer fits 32 bits. -/
def fitsInt (n : Int) : Bool :=
  -0x80000000 ≤ n && n < 0x80000000

/-! ## Reading -/

/-- Reads digits with single underscores between them; `ready` says whether an
underscore may come next. -/
def groupedDigits? (ready : Bool) : List Char → Option (List Nat)
  | [] => if ready then some [] else none
  | '_' :: r => if ready then groupedDigits? false r else none
  | c :: r => do
    let d ← Text.digitValue? c
    let ds ← groupedDigits? true r
    some (d :: ds)

/-- Reads a whole number: blanks around it, a sign, and digits. -/
def readInteger? (s : String) : Option Int := do
  let (negative, cs) := Decimal.takeSign (Text.strip s).toList
  let n := Digits.value 10 (← groupedDigits? false cs)
  some (if negative then -(n : Int) else n)

/-- The whole part of a number. -/
def Binary64.truncate? : Binary64 → Option Int
  | .finite s m e =>
    let (num, den) := Binary64.ratio m e
    let n : Int := (num / den : Nat)
    some (if s then -n else n)
  | _ => none

/-- Reads a date, of which a year or a year and a month are enough. -/
def readDate? (s : String) : Option DateTime :=
  let text := match s.length with
    | 4 => s ++ "-01-01"
    | 7 => s ++ "-01"
    | _ => s
  match Iso.read text with
  | .ok t => some t
  | .error _ => none

/-- The integer that a value stands for, however large. -/
def Value.wholeNumber? : Value → Option Int
  | .int n => some n
  | .bool b => some (Value.ofBool b)
  | .float x => x.truncate?
  | .text s => readInteger? s
  | _ => none

/-- The value of a scalar type that a client sends. -/
def ScalarType.read? (s : ScalarType) (v : Value) : Option Value :=
  match s, v with
  | .text, .text _ => some v
  | .boolean, .bool _ => some v
  | .integer, .int n => if fitsInt n then some v else none
  | .integer, .float x => (x.toInt?.filter fitsInt).map .int
  | .float, .int n => (Binary64.ofInt? n).map .float
  | .float, .float (.finite ..) => some v
  | .dateTime, .text s => (readDate? s).map .dateTime
  | .bigInt, v => v.wholeNumber?.map .int
  | .decimal, v => (Decimal.read? v.display).map .decimal
  | .hostDecimal, v => (Decimal.read? v.display).map .decimal
  | .json, v => some v
  | _, _ => none

/-! ## Writing -/

/-- The number that a value stands for where a binary number is asked for. -/
def Value.binaryNumber? : Value → Option Binary64
  | .int n => Binary64.ofInt? n
  | .float x => some x
  | .decimal d => d.toBinary?
  | .text s => (Decimal.read? s).bind Decimal.toBinary?
  | _ => none

def Value.exactNumber? : Value → Option Int
  | .int n => some n
  | .bool b => some (Value.ofBool b)
  | .float x => x.toInt?
  | .decimal d => d.toBinary?.bind Binary64.toInt?
  | .text s => readInteger? s
  | _ => none

def Value.scalarText? : Value → Option String
  | .text s => some s
  | .bool b => some (if b then "true" else "false")
  | .int n => some (Digits.signed n)
  | .float (.finite s m e) => some (Binary64.finite s m e).render
  | .decimal d => some d.render
  | .dateTime t => some (t.renderWith " ")
  | _ => none

/-- What is given to a client for a value of a scalar type. -/
def ScalarType.write (s : ScalarType) (v : Value) : Except Fault Value :=
  let orGraph {α : Type} (make : α → Value) : Option α → Except Fault Value
    | some a => .ok (make a)
    | none => .error .graph
  match s with
  | .text => orGraph .text v.scalarText?
  | .boolean =>
    match v with
    | .bool b => .ok (.bool b)
    | .int n => .ok (.bool (n != 0))
    | .float (.finite _ m _) => .ok (.bool (m != 0))
    | _ => .error .graph
  | .integer => orGraph .int (v.exactNumber?.filter fitsInt)
  | .float =>
    match v with
    | .bool b => .ok (.int (Value.ofBool b))
    | v =>
      match v.binaryNumber? with
      | some (.finite s m e) => .ok (.float (.finite s m e))
      | _ => .error .graph
  | .dateTime =>
    match v with
    | .dateTime t => .ok (.text t.render)
    | _ => .error .wrongKind
  | .bigInt | .decimal | .hostDecimal => .ok (.text v.display)
  | .json => .ok v

end RecordSchema
