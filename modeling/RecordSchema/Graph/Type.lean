import RecordSchema.Schema

/-!
# Types of the query API

The query API is described by definitions of named types: scalars,
enumerations, input classes and object classes. Fields and arguments
refer to types by name; a reference admits null unless it is required.

The definition of an output field also says where its value comes from
(`Source`), so that a request that was checked against the definitions
can be run without looking anything up again.
-/

namespace RecordSchema

namespace Graph

/-! ## References -/

/-- A reference to a type. -/
inductive TypeRef where
  | named (name : String)
  | list (item : TypeRef)
  /-- The type without null. -/
  | required (type : TypeRef)
deriving DecidableEq, Inhabited

namespace TypeRef

/-- The written form of a reference. -/
def text : TypeRef → String
  | named n => n
  | list t => "[" ++ t.text ++ "]"
  | required t => t.text ++ "!"

/-- The name that a reference leads to. -/
def base : TypeRef → String
  | named n => n
  | list t => t.base
  | required t => t.base

def nullable : TypeRef → TypeRef
  | required t => t
  | t => t

/-- Whether the reference leaves out null. -/
def isRequired : TypeRef → Bool
  | required _ => true
  | _ => false

end TypeRef

end Graph

/-- The name of a scalar type in the query API. -/
def ScalarType.graphName : ScalarType → String
  | .text => "String"
  | .boolean => "Boolean"
  | .integer => "Int"
  | .float => "Float"
  | .dateTime => "DateTime"
  | .hostDecimal => "Decimal"
  | .decimal => "Decimal"
  | .bigInt => "BigInt"
  | .json => "JSON"

namespace TypeExpr

/-- The reference that stands for a declared type; none for a type that the
query API cannot express. -/
def ref? : TypeExpr → Option Graph.TypeRef
  | .scalar s => some (.required (.named s.graphName))
  | .enum _ n _ => some (.required (.named n))
  | .inputClass _ n => some (.required (.named n))
  | .outputClass _ n => some (.required (.named n))
  | .annotated t => ref? t
  | .list _ t => (ref? t).map fun r => .required (.list r)
  | .union _ ms =>
    match h : ms.filter fun m => !m.isNull with
    | [m] =>
      have : sizeOf m < sizeOf ms :=
        List.sizeOf_lt_of_mem (List.mem_filter.1 (h ▸ List.mem_singleton_self m)).1
      (ref? m).map fun r => if ms.any isNull then r.nullable else r
    | _ => none
  | _ => none
termination_by t => sizeOf t

mutual

/-- The enumerations that a declared type mentions, with their members. -/
def enums : TypeExpr → List (String × List (String × Value))
  | .enum _ n ms => [(n, ms)]
  | .annotated t => enums t
  | .list _ t => enums t
  | .union _ ms => enumsOfAll ms
  | _ => []

/-- The enumerations that several declared types mention. -/
def enumsOfAll : List TypeExpr → List (String × List (String × Value))
  | [] => []
  | t :: r => enums t ++ enumsOfAll r

end

end TypeExpr

namespace Graph

/-! ## Definitions -/

/-- The definition of an argument or of a field of an input class. -/
structure InputDef where
  name : String
  type : TypeRef
  default : Option Value := none
  description : Option String := none

/-- Where the value of an output field comes from. -/
inductive Source where
  /-- The records of a list that a search yields. -/
  | search (list : String)
  /-- The record of a list that a unique filter names. -/
  | single (list : String)
  /-- The number of records of a list that a filter selects. -/
  | tally (list : String)
  /-- The record that a mutation creates. -/
  | create (list : String)
  /-- The record that a mutation updates. -/
  | update (list : String)
  /-- The output of a field of the record at hand. -/
  | output (field : Field)
  /-- An additional output of a field of the record at hand. -/
  | extra (field : Field) (name : String)
  /-- A part of the composite value at hand. -/
  | part

/-- The definition of a field of an object class. -/
structure OutputDef where
  name : String
  type : TypeRef
  args : List InputDef := []
  description : Option String := none
  source : Source := .part

/-- What a type is. -/
inductive TypeBody where
  | scalar (s : ScalarType)
  /-- An enumeration: the names of its members and their values. -/
  | enum (members : List (String × Value))
  | input (fields : List InputDef)
  | object (fields : List OutputDef)

/-- The definition of a type. -/
structure TypeDef where
  name : String
  description : Option String := none
  body : TypeBody

namespace TypeDef

def kindWord (t : TypeDef) : String :=
  match t.body with
  | .scalar _ => "scalar"
  | .enum _ => "enum"
  | .input _ => "input"
  | .object _ => "object"

/-- The types that a definition refers to, in order. -/
def references (t : TypeDef) : List String :=
  match t.body with
  | .input fs => fs.map fun f => f.type.base
  | .object fs => fs.flatMap fun f => f.type.base :: f.args.map fun a => a.type.base
  | _ => []

/-- The names that a definition introduces, its own included. -/
def names (t : TypeDef) : List String :=
  t.name :: match t.body with
  | .scalar _ => []
  | .enum ms => ms.map Prod.fst
  | .input fs => fs.map (·.name)
  | .object fs => fs.flatMap fun f => f.name :: f.args.map (·.name)

end TypeDef

end Graph

end RecordSchema
