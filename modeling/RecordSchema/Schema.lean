import RecordSchema.Field.Type
import RecordSchema.Relation.Input
import RecordSchema.Relation.Plan
import RecordSchema.Schema.Names

/-!
# Schemas

A schema is a set of lists of records. Every list has checked fields and
generated names, and every relation field has a plan that says where its
links are kept.
-/

namespace RecordSchema

/-- A list of a schema. -/
structure ListType where
  key : String
  names : ListNames
  fields : List (String × Field)
  description : Option String

/-- A schema. -/
structure Schema where
  lists : List ListType
  /-- The plans of all relations. -/
  plans : List RelationPlan
  provider : String
  setPolicy : SetPolicy

namespace ListType

def field? (l : ListType) (key : String) : Option Field :=
  l.fields.lookup key

/-- The kinds of the fields that are held in columns of the list itself. -/
def storedFields (l : ListType) : List (String × Storage) :=
  l.fields.filterMap fun (key, f) =>
    match f.storage with
    | .relation _ => none
    | .none => none
    | s => some (key, s)

def settable (l : ListType) (op : Operation) : List Field :=
  (l.fields.map Prod.snd).filter fun f => (f.arg? op).isSome

end ListType

namespace Schema

def list? (s : Schema) (key : String) : Option ListType :=
  s.lists.find? fun l => l.key == key

def field? (s : Schema) (list key : String) : Option Field :=
  (s.list? list).bind fun l => l.field? key

def plan? (s : Schema) (list field : String) : Option RelationPlan :=
  s.plans.find? fun p => p.list == list && p.field == field

def plansOf (s : Schema) (list : String) : List RelationPlan :=
  s.plans.filter fun p => p.list == list

/-- The description of the fields of a list for administrators. -/
def describeFields : List (String × Field) → Except Fault Value.Entries
  | [] => .ok []
  | (key, f) :: r => do
    let es ← f.describeForAdmin
    let rest ← describeFields r
    return (.text key, .map es) :: rest

/-- The description of lists for administrators. -/
def describeLists : List ListType → Except Fault Value.Entries
  | [] => .ok []
  | l :: r => do
    let fields ← describeFields l.fields
    let rest ← describeLists r
    return (.text l.key, Value.ofFields [
      ("key", .text l.key), ("plural", .text l.names.plural),
      ("description", (l.description.map Value.text).getD .null), ("fields", .map fields)]) :: rest

def describeForAdmin (s : Schema) : Except Fault Value.Entries :=
  describeLists s.lists

end Schema

end RecordSchema
