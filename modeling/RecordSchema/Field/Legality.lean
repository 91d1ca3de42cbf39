import RecordSchema.Fault

/-!
# Building and checking storage kinds

Building a kind only settles spellings: a word outside a vocabulary is a
fault at once. Structural problems are collected by `Storage.problems`,
so that a schema author sees all of them in one pass.
-/

namespace RecordSchema

/-! ## Spellings -/

def KindAttribute.read {α : Type} [Spelled α] (word : KindAttribute) (v : Value) :
    Except Fault α :=
  match v with
  | .text s =>
    match Spelled.ofText? s with
    | some a => .ok a
    | none => .error (.value (.spelling word v))
  | _ => .error (.value (.spelling word v))

/-- The index that a value spells; null is no index. -/
def IndexKind.read (v : Value) : Except Fault (Option IndexKind) :=
  match v with
  | .null => .ok none
  | v => (KindAttribute.index.read v).map some

def readModeAndIndex (mode index : Value) : Except Fault (Mode × Option IndexKind) := do
  let mode ← KindAttribute.mode.read mode
  let index ← IndexKind.read index
  return (mode, index)

/-- Settles the spellings of a scalar column: the type first, then the mode,
then the index. -/
def ScalarField.build (scalar mode index : Value) (make : Scalar → Mode → Option IndexKind → ScalarField) :
    Except Fault ScalarField := do
  let scalar ← KindAttribute.scalar.read scalar
  let (mode, index) ← readModeAndIndex mode index
  return make scalar mode index

/-- Settles the spellings of an enum column. -/
def EnumField.build (mode index : Value) (make : Mode → Option IndexKind → EnumField) :
    Except Fault EnumField := do
  let (mode, index) ← readModeAndIndex mode index
  return make mode index

/-- Settles the spelling of a relation. -/
def RelationField.build (mode : Value) (make : Cardinality → RelationField) :
    Except Fault RelationField := do
  let mode ← KindAttribute.relationMode.read mode
  return make mode

/-! ## Problems -/

namespace Storage

/-- The name of the kind in messages. -/
def typeName : Storage → String
  | .none => "NoDBField"
  | .scalar _ => "ScalarDBField"
  | .enum _ => "EnumDBField"
  | .relation _ => "RelationDBField"
  | .multi _ => "MultiDBField"
  | .unsupported v => v.kindName

def complain (condition : Bool) (message : String) : List String :=
  if condition then [message] else []

/-- Whether a list names something twice. -/
def hasDuplicates (xs : List String) : Bool :=
  xs.eraseDups.length != xs.length

def relationProblems (r : RelationField) : List String :=
  complain (r.foreignKey.isSome && r.relationName.isSome)
      "relation sets both foreign_key and relation_name"
    ++ complain (r.mode == .many && r.foreignKey.isSome)
      "foreign_key is only allowed on one relations"
    ++ complain (r.mode == .one && r.relationName.isSome)
      "relation_name is only allowed on many relations"
    ++ complain r.list.isEmpty "relation has no target list"

def enumProblems (f : EnumField) : List String :=
  if f.values.isEmpty then ["enum " ++ Text.quote f.name ++ " has no values"]
  else complain (hasDuplicates f.values) ("enum " ++ Text.quote f.name ++ " has duplicate values")

def scalarProblems (f : ScalarField) : List String :=
  complain (f.updatedAt && f.scalar != .dateTime) "updated_at is only allowed on DateTime fields"

/-- Structural problems of one column of a multi field. -/
def subfieldProblems (name : String) : Storage → List String
  | .scalar f => (scalarProblems f).map (("subfield " ++ Text.quote name ++ ": ") ++ ·)
  | .enum f => (enumProblems f).map (("subfield " ++ Text.quote name ++ ": ") ++ ·)
  | s =>
    ["multi subfield " ++ Text.quote name ++ " must be a scalar or enum field, got " ++ s.typeName]

/-- Structural problems of a kind, none when it is legal. -/
def problems : Storage → List String
  | .none => []
  | .scalar f => scalarProblems f
  | .enum f => enumProblems f
  | .relation r => relationProblems r
  | .multi fields =>
    complain fields.isEmpty "multi field has no subfields"
      ++ fields.flatMap fun (name, s) => subfieldProblems name s
  | .unsupported v => ["unsupported storage field kind " ++ v.kindName]

end Storage

end RecordSchema
