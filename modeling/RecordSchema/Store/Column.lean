import RecordSchema.Field.Kind
import RecordSchema.Text.Case

/-!
# Columns

The columns that a storage kind asks for. A scalar or enum field is one
column; its type follows from the scalar type, and a field in many mode
is a column of JSON lists.
-/

namespace RecordSchema

/-- The type of a column. -/
inductive ColumnType where
  | string
  | text
  | boolean
  | integer
  /-- Whole numbers of any size that storage takes. -/
  | bigInteger
  | float
  | dateTime
  | json
  /-- Exact numbers with a count of digits and of those behind the point. -/
  | numeric (precision : Option (Nat × Nat))
  /-- One of a set of texts; `name` is that of the check on them. -/
  | enum (name : String) (values : List String) (native : Bool)
deriving DecidableEq

def ColumnType.name : ColumnType → String
  | .string => "String"
  | .text => "Text"
  | .boolean => "Boolean"
  | .integer => "Integer"
  | .bigInteger => "BigInteger"
  | .float => "Float"
  | .dateTime => "DateTime"
  | .json => "JSON"
  | .numeric _ => "Numeric"
  | .enum .. => "Enum"

/-- A reference of a key column to the id of a table. -/
structure Reference where
  table : String
  /-- What becomes of the row when the target goes away. -/
  onDelete : String
deriving DecidableEq

/-- A column of a table. -/
structure Column where
  name : String
  type : ColumnType
  nullable : Bool := true
  isPrimary : Bool := false
  unique : Bool := false
  index : Bool := false
  reference : Option Reference := none
  /-- The value for rows that give none, filled in by the client. -/
  default : Option String := none
  /-- The expression for rows that give none, filled in by storage. -/
  expression : Option String := none
deriving DecidableEq

namespace Column

/-- The column type of the texts `values`; the check is named after the
enumeration unless it is given a name. -/
def enumType (enum : String) (values : List String) (check : Option String) (native : Bool) : ColumnType :=
  .enum (check.getD ("ck_" ++ Text.lower enum)) values native

/-- The length of the longest of the texts, one when there are none. -/
def maxLength : List String → Nat
  | [] => 1
  | v :: r => r.foldl (fun n s => max n s.length) v.length

/-! ## Types of scalars -/

def skipBlanks (cs : List Char) : List Char :=
  cs.dropWhile Text.blank.contains

/-- Reads a numeral behind blanks. -/
def numeral? (cs : List Char) : Option (Nat × List Char) :=
  let cs := skipBlanks cs
  let ds := cs.takeWhile fun c => (Text.digitValue? c).isSome
  if ds.isEmpty then none
  else some (Digits.value 10 (ds.filterMap Text.digitValue?), cs.drop ds.length)

/-- The precision and scale that a native type `Decimal(p, s)` states. -/
def precisionOf? (native : String) : Option (Nat × Nat) := do
  let word := "Decimal(".toList
  let cs := skipBlanks native.toList
  if !word.isPrefixOf cs then none
  else
    let (p, cs) ← numeral? (cs.drop word.length)
    let cs ← match skipBlanks cs with
      | ',' :: r => some r
      | _ => none
    let (s, cs) ← numeral? cs
    match skipBlanks cs with
    | ')' :: r => if (skipBlanks r).isEmpty then some (p, s) else none
    | _ => none

def scalarType (f : ScalarField) : ColumnType :=
  match f.scalar with
  | .text => if f.nativeType = some "Text" then .text else .string
  | .boolean => .boolean
  | .int => .integer
  | .bigInt => .bigInteger
  | .float => .float
  | .dateTime => .dateTime
  | .json => .json
  | .decimal => .numeric (f.nativeType.bind precisionOf?)

/-! ## Columns of fields -/

def expressionOf? : Option Default → Option String
  | some (.policy (.dbGenerated (.text e))) => some e
  | _ => none

/-- The column of a scalar or enum field, none for other kinds. -/
def ofStorage? (name : String) (s : Storage) : Option Column :=
  let make (type : ColumnType) (mode : Mode) (default : Option Default) (index : Option IndexKind) : Column :=
    { name
      type := if mode = .many then .json else type
      nullable := mode != .required
      unique := index == some .unique
      index := index == some .index
      expression := expressionOf? default }
  match s with
  | .scalar f => some (make (scalarType f) f.mode f.default f.index)
  | .enum f => some (make (enumType f.name f.values none false) f.mode f.default f.index)
  | _ => none

/-- The numbered id of every table. -/
def id : Column where
  name := "id"
  type := .integer
  nullable := false
  isPrimary := true

def key (name target : String) (unique : Bool) : Column where
  name
  type := .integer
  unique
  index := !unique
  reference := some ⟨target, "SET NULL"⟩

def joinKey (name target : String) : Column where
  name
  type := .integer
  nullable := false
  isPrimary := true
  reference := some ⟨target, "CASCADE"⟩

end Column

end RecordSchema
