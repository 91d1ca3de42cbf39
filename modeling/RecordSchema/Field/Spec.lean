import RecordSchema.Field.Type

/-!
# Field declarations

A field is declared by a builder that runs once every list of the schema
is known, so that a field may refer to any list, its own included.
-/

namespace RecordSchema

/-- What a builder knows. -/
structure BuildData where
  list : String
  key : String
  /-- The keys of all lists. -/
  lists : List String
  /-- The name of the storage provider. -/
  provider : String := "sqlite"
  /-- Named storage configuration. -/
  configuration : Value.Entries := []

def BuildData.configured (d : BuildData) (key : Value) : Except Fault Value :=
  match d.configuration.find? fun e => e.1.same key with
  | some e => .ok e.2
  | none => .error (.key (.storage key))

/-- The declaration of a field. -/
structure FieldSpec where
  build : BuildData → Except Fault FieldType
  label : Option String := none

def FieldSpec.assemble (s : FieldSpec) (d : BuildData) : Except Fault Field := do
  let t ← s.build d
  t.assemble d.list d.key s.label

end RecordSchema
