import RecordSchema.Shape.Union

/-!
# Conformance

`conforms s v` decides whether the value `v` belongs to the shape `s`.
Records are open: they ask for the fields they name and let others be.
-/

namespace RecordSchema

namespace Value

mutual

def isJson : Value → Bool
  | .null => true
  | .text _ => true
  | .bool _ => true
  | .int _ => true
  | .float _ => true
  | .list vs => allJson vs
  | .tuple vs => allJson vs
  | .map es => entriesJson es
  | _ => false

/-- Whether JSON can express all the values. -/
def allJson : List Value → Bool
  | [] => true
  | v :: r => isJson v && allJson r

/-- Whether every key is a text and JSON can express every entry. -/
def entriesJson : List (Value × Value) → Bool
  | [] => true
  | (k, v) :: r =>
    (match k with
      | .text _ => true
      | _ => false)
    && isJson v && entriesJson r

end

def isCallable : Value → Bool
  | .callable => true
  | .related .one .. => true
  | _ => false

/-- Whether the value finds and counts related records. -/
def isAccessor : Value → Bool
  | .items => true
  | .related .many .. => true
  | .host as => as.any (·.1 == "find_many") && as.any (·.1 == "count")
  | _ => false

/-- The members of a list or tuple. -/
def items? : Value → Option (List Value)
  | .list vs => some vs
  | .tuple vs => some vs
  | _ => none

end Value

def Scalar.admits : Scalar → Value → Bool
  | .text, .text _ => true
  | .boolean, .bool _ => true
  | .int, .int _ => true
  | .bigInt, .int _ => true
  | .float, .int _ => true
  | .float, .float _ => true
  | .dateTime, .dateTime _ => true
  | .decimal, .decimal _ => true
  | .json, v => v.isJson
  | _, _ => false

namespace Shape

mutual

def conforms : Shape → Value → Bool
  | .anything, _ => true
  | .oneOf os, v => conformsAny os v
  | .undefined, v => v.isUnset
  | .null, v => v.isNull
  | .scalar s, v => s.admits v
  | .enum _ values, v =>
    match v with
    | .text s => values.contains s
    | _ => false
  | .listOf item, v =>
    match v.items? with
    | some vs => vs.all fun v => conforms item v
    | none => false
  | .record fields, v =>
    match v with
    | .map es => conformsFields fields es
    | _ => false
  | .filter, v => v.isMapping
  | .relationInput .., v => v.isMapping
  | .relatedItem _, v => v.isCallable
  | .relatedItems _, v => v.isAccessor
  | .inputObject _, v => !v.isUnset
  | .listType .., v => !v.isUnset

/-- Whether a value belongs to one of the shapes. -/
def conformsAny : List Shape → Value → Bool
  | [], _ => false
  | s :: r, v => conforms s v || conformsAny r v

/-- Whether the entries of a mapping belong to the shapes of all fields; an
absent entry counts as not sent. -/
def conformsFields : List (String × Shape) → Value.Entries → Bool
  | [], _ => true
  | (k, s) :: r, es => conforms s (es.get k) && conformsFields r es

end

end Shape

end RecordSchema
