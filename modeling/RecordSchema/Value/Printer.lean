import RecordSchema.Text.Quoted
import RecordSchema.Value

/-!
# Printed values

Two printed forms of a value. `describe` is the form in messages, where
texts are quoted and every kind can be told from the others; `display`
is the plain form, which differs for texts, numbers, dates and members
of enumerations at the top only.
-/

namespace RecordSchema.Value

/-- The name of a member of an enumeration: its value when that is a text. -/
def memberName : Value → String
  | .text s => s
  | _ => "value"

mutual

/-- The form of a value in messages. -/
def describe : Value → String
  | .unset => "UNSET"
  | .null => "None"
  | .bool b => if b then "True" else "False"
  | .int n => Digits.signed n
  | .float x => x.render
  | .text s => Text.quote s
  | .decimal d => "Decimal('" ++ d.render ++ "')"
  | .dateTime t => t.describe
  | .bytes bs => Text.quoteBytes bs
  | .list vs => "[" ++ ", ".intercalate (describeAll vs) ++ "]"
  | .tuple vs => Text.tupleOf (describeAll vs)
  | .map es => "\x7b" ++ ", ".intercalate (describeEntries es) ++ "\x7d"
  | .member e v => "<" ++ e ++ "." ++ v.memberName ++ ": " ++ describe v ++ ">"
  | .input t fs => t.name ++ "(" ++ ", ".intercalate (describeFields fs) ++ ")"
  | .object t fs => t ++ "(" ++ ", ".intercalate (describeFields fs) ++ ")"
  | .host fs => "namespace(" ++ ", ".intercalate (describeFields fs) ++ ")"
  | .callable => "<callable>"
  | .items => "<items>"
  | .related .one .. => "<callable>"
  | .related .many .. => "<items>"

/-- The forms of several values. -/
def describeAll : List Value → List String
  | [] => []
  | v :: r => describe v :: describeAll r

/-- The forms of the entries of a mapping. -/
def describeEntries : List (Value × Value) → List String
  | [] => []
  | (k, v) :: r => (describe k ++ ": " ++ describe v) :: describeEntries r

/-- The forms of the fields of an object. -/
def describeFields : List (String × Value) → List String
  | [] => []
  | (k, v) :: r => (k ++ "=" ++ describe v) :: describeFields r

end

/-- The plain form of a value. -/
def display : Value → String
  | .text s => s
  | .decimal d => d.render
  | .dateTime t => t.renderWith " "
  | .member e v => e ++ "." ++ v.memberName
  | v => v.describe

def kindName : Value → String
  | .unset => "UnsetType"
  | .null => "NoneType"
  | .bool _ => "bool"
  | .int _ => "int"
  | .float _ => "float"
  | .text _ => "str"
  | .decimal _ => "Decimal"
  | .dateTime _ => "datetime"
  | .bytes _ => "bytes"
  | .list _ => "list"
  | .tuple _ => "tuple"
  | .map _ => "dict"
  | .member e _ => e
  | .input t _ => t.name
  | .object t _ => t
  | .host _ => "SimpleNamespace"
  | .callable | .related .one .. => "function"
  | .items | .related .many .. => "RelatedItems"

/-- Whether a value counts as true: zero, nothing and the empty do not. -/
def isTruthy : Value → Bool
  | .unset => false
  | .null => false
  | .bool b => b
  | .int n => n != 0
  | .float (.finite _ m _) => m != 0
  | .decimal (.finite _ c _) => c != 0
  | .text s => !s.isEmpty
  | .bytes bs => !bs.isEmpty
  | .list vs => !vs.isEmpty
  | .tuple vs => !vs.isEmpty
  | .map es => !es.isEmpty
  | _ => true

end RecordSchema.Value
