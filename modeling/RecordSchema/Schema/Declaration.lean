import RecordSchema.Field.Factory
import RecordSchema.Schema

/-!
# Declaring and compiling schemas

Lists are declared one by one and compiled together: every field is
assembled, every relation planned, and every problem of the whole schema
reported at once. A list without a field `id` is given one.
-/

namespace RecordSchema

/-- A declared list. -/
structure ListDeclaration where
  key : String
  specs : List (String × FieldSpec)
  plural : Option String := none
  description : Option String := none

/-- The lists declared so far. -/
structure Declarations where
  provider : String := "sqlite"
  setPolicy : SetPolicy := .reject
  configuration : Value.Entries := []
  lists : List ListDeclaration := []
  /-- Problems of the declarations themselves. -/
  problems : List String := []

/-- The keys of a filter that combine other filters. -/
def logicalKeys : List String := ["AND", "OR", "NOT"]

/-- Whether a text begins with a capital letter. -/
def startsCapital (s : String) : Bool :=
  match s.toList with
  | c :: _ => Text.upperCase.contains c
  | [] => false

namespace Declarations

/-- The key field of a list that declares none. -/
def withId (specs : List (String × FieldSpec)) : List (String × FieldSpec) :=
  if specs.any (·.1 == "id") then specs else ("id", .id (some "ID")) :: specs

def keyProblems (d : Declarations) (key : String) : List String :=
  Storage.complain (d.lists.any fun l => l.key == key) (key ++ ": list is declared more than once")
    ++ Storage.complain (!Name.isIdentifier key || !startsCapital key)
      (key ++ ": list keys must be PascalCase identifiers")

/-- Declares a list; a later list replaces an earlier one of the same key. -/
def declare (d : Declarations) (l : ListDeclaration) : Declarations :=
  let l := { l with specs := withId l.specs }
  { d with
    problems := d.problems ++ d.keyProblems l.key
    lists :=
      if d.lists.any fun m => m.key == l.key then
        d.lists.map fun m => if m.key == l.key then l else m
      else d.lists ++ [l] }

/-! ## Compilation -/

/-- Fields and the problems of those that could not be assembled. -/
structure Assembled where
  fields : List (String × Field) := []
  problems : List String := []

def isFieldKey (key : String) : Bool :=
  Name.isIdentifier key && !logicalKeys.contains key

/-- Assembles one field. Only problems of the schema are collected; any other
fault ends the compilation. -/
def assembleField (d : Declarations) (list key : String) (spec : FieldSpec) : Except Fault Assembled :=
  if !isFieldKey key then .ok { problems := [list ++ "." ++ key ++ ": not a valid field key"] }
  else
    let data : BuildData := {
      list, key
      lists := d.lists.map (·.key)
      provider := d.provider
      configuration := d.configuration }
    match spec.assemble data with
    | .ok f => .ok { fields := [(key, f)] }
    | .error (.configuration ps) => .ok { problems := ps }
    | .error e => .error e

def assembleFields (d : Declarations) (list : String) :
    List (String × FieldSpec) → Except Fault Assembled
  | [] => .ok {}
  | (key, spec) :: r => do
    let here ← d.assembleField list key spec
    let rest ← d.assembleFields list r
    return { fields := here.fields ++ rest.fields, problems := here.problems ++ rest.problems }

def isNumberedKey (f : Field) : Bool :=
  match f.storage with
  | .scalar s => s.scalar == .int && f.storage.isNumbered && !f.accepts .create
  | _ => false

def extraProblems (list : String) (fields : List (String × Field)) (f : Field) : List String :=
  f.extraOutputs.flatMap fun (name, _) =>
    Storage.complain (fields.any (·.1 == name) || !Name.isIdentifier name)
      (list ++ "." ++ f.key ++ ": output " ++ Text.quote name ++ " clashes with another field")

def listProblems (list : String) (fields : List (String × Field)) : List String :=
  Storage.complain (match fields.lookup "id" with
      | some f => !isNumberedKey f
      | none => false)
      (list ++ ".id: must be the autoincrement Int key")
    ++ fields.flatMap (fun (_, f) => extraProblems list fields f)
    ++ Storage.complain (!fields.any fun (_, f) => (f.arg? .create).isSome)
      (list ++ ": no field is settable on create")

/-- Assembles all lists, with the problems of each behind those of its fields. -/
def assembleLists (d : Declarations) :
    List ListDeclaration → Except Fault (List ListType × List String)
  | [] => .ok ([], [])
  | l :: r => do
    let a ← d.assembleFields l.key l.specs
    let (lists, problems) ← d.assembleLists r
    let compiled : ListType := {
      key := l.key
      names := .ofKey l.key l.plural
      fields := a.fields
      description := l.description }
    return (compiled :: lists, a.problems ++ listProblems l.key a.fields ++ problems)

/-- The storage kinds of all fields. -/
def kinds (lists : List ListType) : Relations :=
  lists.map fun l => (l.key, l.fields.map fun (key, f) => (key, f.storage))

/-- The classes of the API are named for the lists before anything is assembled,
and no class has a null character in its name. -/
def checkNames (d : Declarations) : Except Fault Unit :=
  if d.lists.any fun l => l.key.toList.contains '\x00' then .error (.value .nullCharacter)
  else .ok ()

/-- Compiles the declared lists: their fields and relations, without the classes of the API. -/
def compile (d : Declarations) : Except Fault Schema := do
  d.checkNames
  let (lists, fieldProblems) ← d.assembleLists d.lists
  let (plans, relationProblems) := Relations.plan (kinds lists)
  let problems := d.problems
    ++ Storage.complain d.lists.isEmpty "schema declares no lists"
    ++ fieldProblems ++ relationProblems
  match problems with
  | p :: ps => throw (.configuration (p :: ps))
  | [] => return { lists, plans, provider := d.provider, setPolicy := d.setPolicy }

end Declarations

end RecordSchema
