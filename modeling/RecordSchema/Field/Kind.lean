import RecordSchema.Spelling
import RecordSchema.Value

/-!
# Storage kinds

Everything that a field can ask of storage: nothing at all, one scalar
column, one column restricted to a set of texts, a link to records of
another list, or several columns owned by one field. A kind is only a
description; whether it is legal is decided by `Storage.problems` and
`Storage.defaultProblems`, which collect every problem instead of
stopping at the first.
-/

namespace RecordSchema

/-- The scalar types of columns. -/
inductive Scalar where
  | text
  | boolean
  | int
  | float
  | dateTime
  | bigInt
  | json
  | decimal
deriving DecidableEq, Inhabited

/-- Cardinality of a scalar or enum field. -/
inductive Mode where
  | required
  | nullable
  | many
deriving DecidableEq, Inhabited

/-- How a column is indexed. -/
inductive IndexKind where
  | unique
  | index
deriving DecidableEq, Inhabited

instance : Spelled Scalar where
  all := [.text, .boolean, .int, .float, .dateTime, .bigInt, .json, .decimal]
  spelling
    | .text => "String"
    | .boolean => "Boolean"
    | .int => "Int"
    | .float => "Float"
    | .dateTime => "DateTime"
    | .bigInt => "BigInt"
    | .json => "Json"
    | .decimal => "Decimal"

instance : Spelled Mode where
  all := [.required, .nullable, .many]
  spelling
    | .required => "required"
    | .nullable => "optional"
    | .many => "many"

instance : Spelled IndexKind where
  all := [.unique, .index]
  spelling
    | .unique => "unique"
    | .index => "index"

instance : Spelled Cardinality where
  all := [.one, .many]
  spelling
    | .one => "one"
    | .many => "many"

def Scalar.name (s : Scalar) : String := Spelled.spelling s

/-! ## Default policies -/

/-- Where the value of an absent field comes from at creation. -/
inductive Policy where
  | literal (value : Value)
  | cuid
  | uuid
  /-- Random bytes as text. -/
  | random (bytes encoding : Value)
  /-- Numbered by storage. -/
  | autoincrement
  /-- The current time. -/
  | now
  /-- An expression handed to storage. -/
  | dbGenerated (expression : Value)

/-- A declared default: a policy, or a bare value, which is never legal. -/
inductive Default where
  | policy (p : Policy)
  | bare (v : Value)

def Policy.name : Policy → String
  | .literal _ => "literal"
  | .cuid => "cuid"
  | .uuid => "uuid"
  | .random .. => "random"
  | .autoincrement => "autoincrement"
  | .now => "now"
  | .dbGenerated _ => "dbgenerated"

/-! ## Kinds -/

/-- One column of a scalar type. -/
structure ScalarField where
  scalar : Scalar
  mode : Mode := .nullable
  default : Option Default := none
  index : Option IndexKind := none
  /-- Name of the column, when it is not the key of the field. -/
  map : Option String := none
  nativeType : Option String := none
  /-- Stamped with the current time on every write. -/
  updatedAt : Bool := false

/-- One column restricted to a set of texts. -/
structure EnumField where
  name : String
  values : List String
  mode : Mode := .nullable
  default : Option Default := none
  index : Option IndexKind := none
  map : Option String := none

/-- Ownership of the key column of a relation; `map` renames the column. -/
structure ForeignKey where
  map : Option String := none
deriving DecidableEq

/-- A link to records of list `list`. -/
structure RelationField where
  mode : Cardinality
  list : String
  /-- The field of the target list that holds the other side. -/
  field : Option String := none
  foreignKey : Option ForeignKey := none
  /-- Name of the join table. -/
  relationName : Option String := none
deriving DecidableEq

/-- Whether this side of the relation owns the key column. -/
def RelationField.ownsForeignKey (r : RelationField) : Bool :=
  r.foreignKey.isSome

/-- What a field stores. -/
inductive Storage where
  /-- The field exists in the API and stores nothing. -/
  | none
  | scalar (f : ScalarField)
  | enum (f : EnumField)
  | relation (f : RelationField)
  /-- Several columns owned by one field. -/
  | multi (fields : List (String × Storage))
  /-- A value in place of a kind. -/
  | unsupported (v : Value)

instance : Inhabited Storage := ⟨.none⟩

namespace Storage

/-- Whether the kind is one scalar or enum column. -/
def isScalarish : Storage → Bool
  | .scalar _ => true
  | .enum _ => true
  | _ => false

def kindWord : Storage → String
  | .none => "none"
  | .scalar _ => "scalar"
  | .enum _ => "enum"
  | .relation _ => "relation"
  | .multi _ => "multi"
  | .unsupported _ => "unsupported"

/-- The mode of a scalar or enum column. -/
def mode? : Storage → Option Mode
  | .scalar f => some f.mode
  | .enum f => some f.mode
  | _ => Option.none

/-- The declared default of a scalar or enum column. -/
def default? : Storage → Option Default
  | .scalar f => f.default
  | .enum f => f.default
  | _ => Option.none

/-- The index of a scalar or enum column. -/
def index? : Storage → Option IndexKind
  | .scalar f => f.index
  | .enum f => f.index
  | _ => Option.none

/-- The column name that a scalar or enum column is given. -/
def map? : Storage → Option String
  | .scalar f => f.map
  | .enum f => f.map
  | _ => Option.none

/-- Whether the field is a DateTime column stamped on every write. -/
def isStamped : Storage → Bool
  | .scalar f => f.updatedAt
  | _ => false

def isNumbered (s : Storage) : Bool :=
  match s.default? with
  | some (.policy .autoincrement) => true
  | _ => false

end Storage

end RecordSchema
