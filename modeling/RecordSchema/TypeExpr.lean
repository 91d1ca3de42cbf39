import RecordSchema.Text.Quoted
import RecordSchema.Value

/-!
# Type expressions

The declared types of arguments and outputs: scalar types, enums, lists,
unions and the input and output classes of the API. A union written with
`TypeExpr.union` is flat, names each member once, and is the member
itself when there is only one.
-/

namespace RecordSchema

/-- The scalar types that a declaration may name. -/
inductive ScalarType where
  | text
  | boolean
  | integer
  | float
  | dateTime
  /-- The host's decimal class. -/
  | hostDecimal
  /-- The decimal scalar of the API. -/
  | decimal
  | bigInt
  | json
deriving DecidableEq, Inhabited

/-- How a list type is written. -/
inductive ListSpelling where
  | typing
  | builtin
  | sequence
deriving DecidableEq

/-- How a union is written. -/
inductive UnionSpelling where
  | typing
  | pipe
deriving DecidableEq

/-- A declared type. -/
inductive TypeExpr where
  | scalar (s : ScalarType)
  /-- The type of null. -/
  | null
  /-- A class that has no place in the API; `qualified` is its name within
  other types. -/
  | foreign (qualified : String)
  /-- The type of everything. -/
  | any
  /-- A list type that names no item type. -/
  | bareList (spelling : String)
  | list (spelling : ListSpelling) (item : TypeExpr)
  | tuple (items : List TypeExpr)
  | set (item : TypeExpr)
  /-- A type with notes attached. -/
  | annotated (type : TypeExpr)
  | union (spelling : UnionSpelling) (members : List TypeExpr)
  /-- An enumeration with its members and their values. -/
  | enum (qualifier name : String) (members : List (String × Value))
  | inputClass (qualifier name : String)
  | outputClass (qualifier name : String)

instance : Inhabited TypeExpr := ⟨.null⟩

namespace TypeExpr

/-! ## Printing -/

def scalarName : ScalarType → String
  | .text => "str"
  | .boolean => "bool"
  | .integer => "int"
  | .float => "float"
  | .dateTime => "datetime.datetime"
  | .hostDecimal => "decimal.Decimal"
  | .decimal => "Decimal"
  | .bigInt => "BigInt"
  | .json => "JSON"

def sharedQualifier : String := "fieldql.input_types"

def qualify (qualifier name : String) : String :=
  if qualifier.isEmpty then name else qualifier ++ "." ++ name

mutual

/-- The name of a type within other types. -/
def inner : TypeExpr → String
  | .scalar s => scalarName s
  | .null => "NoneType"
  | .foreign q => q
  | .any => "typing.Any"
  | .bareList s => s
  | .list .typing item => "typing.List[" ++ inner item ++ "]"
  | .list .builtin item => "list[" ++ inner item ++ "]"
  | .list .sequence item => "typing.Sequence[" ++ inner item ++ "]"
  | .tuple items => "typing.Tuple[" ++ ", ".intercalate (innerAll items) ++ "]"
  | .set item => "typing.Set[" ++ inner item ++ "]"
  | .annotated t => "typing.Annotated[" ++ inner t ++ "]"
  | .union .typing ms =>
    match innerAll ms with
    | ["NoneType", a] => "typing.Optional[" ++ a ++ "]"
    | [a, "NoneType"] => "typing.Optional[" ++ a ++ "]"
    | names => "typing.Union[" ++ ", ".intercalate names ++ "]"
  | .union .pipe ms =>
    " | ".intercalate ((innerAll ms).map fun n => if n == "NoneType" then "None" else n)
  | .enum q name _ => qualify q name
  | .inputClass q name => qualify q name
  | .outputClass q name => qualify q name

/-- The names of several types. -/
def innerAll : List TypeExpr → List String
  | [] => []
  | t :: r => inner t :: innerAll r

end

/-- The form of a type in messages. -/
def describe (t : TypeExpr) : String :=
  match t with
  | .scalar _ | .null | .foreign _ | .inputClass .. | .outputClass .. =>
    "<class '" ++ t.inner ++ "'>"
  | .enum _ name _ => "<enum '" ++ name ++ "'>"
  | t => t.inner

/-! ## Unions -/

/-- Whether two types are the same. -/
def same (a b : TypeExpr) : Bool :=
  a.inner == b.inner

def isNull : TypeExpr → Bool
  | .null => true
  | _ => false

/-- The members of a union, or the type itself. -/
def members : TypeExpr → List TypeExpr
  | .union _ ms => ms
  | t => [t]

/-- Keeps the first of equal types. -/
def distinct : List TypeExpr → List TypeExpr
  | [] => []
  | t :: r => t :: (distinct r).filter fun u => !u.same t

def unionOf (spelling : UnionSpelling) (types : List TypeExpr) : TypeExpr :=
  match distinct (types.flatMap members) with
  | [t] => t
  | ms => .union spelling ms

/-- The place of a scalar type in the table of scalar types. -/
def rank : TypeExpr → Nat
  | .scalar .text => 0
  | .scalar .boolean => 1
  | .scalar .integer => 2
  | .scalar .float => 3
  | .scalar .dateTime => 4
  | .scalar _ => 5
  | _ => 6

/-- A type that also admits null. The members of a union written with bars
are listed in the order of the table of scalar types. -/
def optional (t : TypeExpr) : TypeExpr :=
  match t with
  | .union .pipe ms => unionOf .typing (ms.mergeSort (fun a b => rank a ≤ rank b) ++ [.null])
  | t => unionOf .typing [t, .null]

/-- Whether the type is a class, so that a bar makes a plain union of it. -/
def isClass : TypeExpr → Bool
  | .scalar _ | .null | .foreign _ | .enum .. | .inputClass .. | .outputClass .. => true
  | .list .builtin _ => true
  | .union .pipe _ => true
  | _ => false

/-- A union written with bars. -/
def pipe (types : List TypeExpr) : TypeExpr :=
  unionOf (if types.all isClass then .pipe else .typing) types

/-! ## Parts -/

/-- Takes notes off. -/
def plain : TypeExpr → TypeExpr
  | .annotated t => plain t
  | t => t

/-- Splits null off a union with one other member. A union with more, or
none, is left whole as the error. -/
def splitNull (t : TypeExpr) : Except TypeExpr (TypeExpr × Bool) :=
  match t with
  | .union _ ms =>
    match ms.filter fun m => !m.isNull with
    | [m] => .ok (m, ms.any isNull)
    | _ => .error t
  | t => .ok (t, false)

/-- The members of an enumeration: a member with the value of an earlier one
is only another name for it. -/
def enumOf (qualifier name : String) (members : List (String × Value)) : TypeExpr :=
  let keep := members.foldl
    (fun (acc : List (String × Value)) m => if acc.any (·.2.same m.2) then acc else acc ++ [m]) []
  .enum qualifier name keep

end TypeExpr

end RecordSchema
