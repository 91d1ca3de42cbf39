import RecordSchema.Shape
import RecordSchema.Sorting
import RecordSchema.Text.Quoted

/-!
# Shapes in messages

The printed form of a shape. The alternatives of a set are listed in
the order of their printed forms, so the form of a set does not depend
on how it was put together.
-/

namespace RecordSchema

/-- A scalar type in a message. -/
def Scalar.describe (s : Scalar) : String :=
  let constant := match s with
    | .text => "STRING"
    | .boolean => "BOOLEAN"
    | .int => "INT"
    | .float => "FLOAT"
    | .dateTime => "DATETIME"
    | .bigInt => "BIGINT"
    | .json => "JSON"
    | .decimal => "DECIMAL"
  "<ScalarType." ++ constant ++ ": " ++ Text.quote s.name ++ ">"

/-- The cardinality of a relation in a message. -/
def Cardinality.describe : Cardinality → String
  | .one => "<RelationMode.ONE: 'one'>"
  | .many => "<RelationMode.MANY: 'many'>"

def Operation.describe (o : Operation) : String :=
  "<Operation." ++ o.constant ++ ": " ++ Text.quote o.name ++ ">"

namespace Shape

/-- Texts in the order of their code points. -/
def sortTexts (xs : List String) : List String :=
  Sorting.sort (fun a b => a ≤ b) xs

mutual

/-- The form of a shape in messages. -/
def describe : Shape → String
  | .undefined => "UNDEFINED"
  | .null => "NULL"
  | .anything => "ANYTHING"
  | .filter => "FILTER"
  | .scalar s => "ScalarShape(scalar=" ++ s.describe ++ ")"
  | .enum name values =>
    "EnumShape(name=" ++ Text.quote name ++ ", values=" ++ Text.tupleOf (values.map Text.quote) ++ ")"
  | .listOf item => "ListOf(item=" ++ describe item ++ ")"
  | .oneOf [] => "OneOf(options=frozenset())"
  | .oneOf (o :: os) =>
    "OneOf(options=frozenset(\x7b"
      ++ ", ".intercalate (sortTexts (describe o :: describeAll os)) ++ "\x7d))"
  | .record fields => "Record(fields=" ++ Text.tupleOf (describeFields fields) ++ ")"
  | .inputObject name => "InputObject(name=" ++ Text.quote name ++ ")"
  | .listType list type =>
    "ListTypeRef(list=" ++ Text.quote list ++ ", type=" ++ Text.quote type ++ ")"
  | .relationInput list mode =>
    "RelationInput(list=" ++ Text.quote list ++ ", mode=" ++ mode.describe ++ ")"
  | .relatedItem list => "RelatedItem(list=" ++ Text.quote list ++ ")"
  | .relatedItems list => "RelatedItems(list=" ++ Text.quote list ++ ")"

/-- The forms of several shapes. -/
def describeAll : List Shape → List String
  | [] => []
  | s :: r => describe s :: describeAll r

/-- The forms of the fields of a record. -/
def describeFields : List (String × Shape) → List String
  | [] => []
  | (k, s) :: r => Text.tupleOf [Text.quote k, describe s] :: describeFields r

end

end Shape

end RecordSchema
