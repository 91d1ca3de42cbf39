import RecordSchema.Sorting
import RecordSchema.Value.Printer

/-!
# Plain values

Client input arrives as input objects, enumeration members, lists and
mappings. `Value.plain` takes it down to plain values: input objects
become mappings under the names of the API, members become their values,
tuples become lists, and entries that were not sent vanish while explicit
nulls stay.
-/

namespace RecordSchema.Value

mutual

def plain : Value → Value
  | .member _ v => v
  | .list vs => .list (plainAll vs)
  | .tuple vs => .list (plainAll vs)
  | .map es => .map (plainEntries es)
  | .input t fs => .map (plainFields t.apiName fs [])
  | .object _ fs => .map (plainFields id fs [])
  | v => v

/-- The plain forms of several values. -/
def plainAll : List Value → List Value
  | [] => []
  | v :: r => plain v :: plainAll r

/-- The plain forms of the entries that were sent. -/
def plainEntries : List (Value × Value) → List (Value × Value)
  | [] => []
  | (k, v) :: r => if v.isUnset then plainEntries r else (k, plain v) :: plainEntries r

/-- Adds the fields that were sent, each under the name of its attribute. -/
def plainFields (name : String → String) : List (String × Value) → Entries → Entries
  | [], es => es
  | (k, v) :: r, es =>
    if v.isUnset then plainFields name r es else plainFields name r (es.put (name k) (plain v))

end

/-! ## Sorted keys -/

/-- The kinds of value that have an order. -/
inductive KeyKind where
  | text
  | number
  | bytes
  /-- Dates with an offset, or without one. -/
  | dateTime (hasOffset : Bool)
deriving DecidableEq

def keyKind? : Value → Option KeyKind
  | .text _ => some .text
  | .bool _ | .int _ | .float _ | .decimal _ => some .number
  | .bytes _ => some .bytes
  | .dateTime t => some (.dateTime t.offset.isSome)
  | _ => none

/-- The size of a number: whether it is finite or how it is infinite, and its ratio. -/
def magnitude? : Value → Option (Int × Int × Nat)
  | .bool b => some (0, ofBool b, 1)
  | .int n => some (0, n, 1)
  | .float (.finite s m e) => some (0, Binary64.signedRatio s m e)
  | .decimal (.finite s c e) =>
    let c : Int := if s then -(c : Int) else c
    some (0, if e < 0 then (c, Nat.pow 10 e.natAbs) else (c * Nat.pow 10 e.toNat, 1))
  | .float (.infinity s) | .decimal (.infinity s) => some (if s then -1 else 1, 0, 1)
  | _ => none

/-- Whether a value comes before another one of its kind. -/
def isBefore (a b : Value) : Bool :=
  match a, b with
  | .text s, .text t => s < t
  | .bytes s, .bytes t => s < t
  | .dateTime t, .dateTime u => t.micros < u.micros
  | a, b =>
    match a.magnitude?, b.magnitude? with
    | some (i, p, q), some (j, r, s) => i < j || i == j && p * s < r * q
    | _, _ => false

/-- Keys in ascending order; keys of different kinds have none. -/
def sortKeys? (keys : List Value) : Option (List Value) :=
  let kinds := keys.map keyKind?
  if keys.length ≤ 1 || kinds.all fun k => k.isSome && k == kinds.headD none then
    some (Sorting.sort (fun a b => !b.isBefore a) keys)
  else none

end RecordSchema.Value
