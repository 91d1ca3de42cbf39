import RecordSchema.Field.Factory
import RecordSchema.Graph.Script
import RecordSchema.Graph.Type
import RecordSchema.Schema.Declaration

/-!
# The types of a schema

Every schema has a query API. A list contributes an object class for its
records, input classes for its operations and for links to its records,
three queries (search, single record, count) and two mutations (create,
update). Fields contribute enumerations and classes of their own, and
the filters on scalar columns are the same everywhere.

Declared lists become a schema in `Declarations.toSchema`, when the
classes for their records and inputs are made. `Catalogue.ofSchema`
collects the definitions that the queries and mutations lead to, and
refuses a schema whose API would be malformed.
-/

namespace RecordSchema.Graph

/-- The definitions that the queries and mutations of a schema lead to. -/
structure Catalogue where
  types : List TypeDef

namespace Catalogue

def type? (c : Catalogue) (name : String) : Option TypeDef :=
  c.types.find? fun t => t.name == name

def body? (c : Catalogue) (name : String) : Option TypeBody :=
  (c.type? name).map (·.body)

end Catalogue

/-! ## Shared types -/

def scalarTypes : List TypeDef :=
  let make (s : ScalarType) (description : Option String) : TypeDef :=
    { name := s.graphName, description, body := .scalar s }
  [make .text none, make .boolean none, make .integer none, make .float none,
    make .dateTime "Date with time (isoformat)",
    make .bigInt "Arbitrary precision integer, serialized as a string.",
    make .decimal "Decimal number, serialized as a string.",
    make .json none]

/-- The types of a query that everyone has, and so are left out of listings. -/
def standardScalars : List String := ["Boolean", "Float", "ID", "Int", "String"]

def queryMode : TypeExpr :=
  .enum TypeExpr.sharedQualifier "QueryMode" [("default", .text "default"), ("insensitive", .text "insensitive")]

/-- An argument that may be null or left out. -/
def given (t : TypeExpr) : Arg where
  type := t.optional

def filterFields (name : String) (s : Scalar) : List (String × Arg) :=
  let value := given s.declaredType
  let values := given (.list .typing s.declaredType)
  let negated := given (ListNames.inputType name)
  match s with
  | .boolean => [("equals", value), ("not", negated)]
  | s =>
    [("equals", value), ("in", values), ("notIn", values), ("lt", value), ("lte", value),
      ("gt", value), ("gte", value)]
      ++ (if s = .text then
        [("contains", value), ("startsWith", value), ("endsWith", value), ("mode", given queryMode)]
      else [])
      ++ [("not", negated)]

abbrev InputClass := String × List (String × Arg)

/-- The filters on scalar columns. -/
def sharedInputs : List InputClass :=
  (Spelled.all : List Scalar).filterMap fun s =>
    s.filterName?.map fun name => (name, filterFields name s)

/-- The attribute of a filter that goes by a name in the API. Names that are reserved as
attributes, and names of two words, are spelled in another way there. -/
def filterAttribute : String → String
  | "in" => "in_"
  | "notIn" => "not_in"
  | "not" => "not_"
  | "startsWith" => "starts_with"
  | "endsWith" => "ends_with"
  | name => name

/-- The classes of the filters on scalar columns. -/
def filterTypes : List InputType :=
  sharedInputs.map fun (name, fields) =>
    { name, attributes := fields.map fun f => (filterAttribute f.1, f.1) }

/-! ## Types of a list -/

/-- The keys that combine filters, as fields of a filter. -/
def combinators (n : ListNames) : List (String × Arg) :=
  ["AND", "OR", "NOT"].map fun key =>
    (key, given (.list .typing (ListNames.inputType n.filterInput)))

def operationFields (l : ListType) (op : Operation) : List (String × Arg) :=
  (l.settable op).filterMap fun f => (f.arg? op).map (f.key, ·)

def operationInputs (l : ListType) : List InputClass :=
  let n := l.names
  [(n.createInput, operationFields l .create),
    (n.updateInput, operationFields l .update),
    (n.filterInput, operationFields l .filter ++ combinators n),
    (n.uniqueInput, operationFields l .identify),
    (n.orderInput, operationFields l .order)]

/-- The input classes for links to the records of a list. -/
def linkInputs (n : ListNames) : List InputClass :=
  let data := ListNames.inputType n.createInput
  let unique := ListNames.inputType n.uniqueInput
  let filter := ListNames.inputType n.filterInput
  let all (t : TypeExpr) := given (.list .typing t)
  let one := [("create", given data), ("connect", given unique)]
  [(n.oneCreateInput, one),
    (n.oneUpdateInput, one ++ [("disconnect", given (.scalar .boolean))]),
    (n.manyFilterInput, [("every", given filter), ("some", given filter), ("none", given filter)]),
    (n.manyCreateInput, [("create", all data), ("connect", all unique)]),
    (n.manyUpdateInput, [("set", all unique), ("disconnect", all unique), ("connect", all unique),
      ("create", all data)])]

/-- The input classes that the fields of a list bring along. -/
def fieldInputs (l : ListType) : List InputClass :=
  l.fields.flatMap fun (_, f) => (f.classes.filter (·.isInput)).map fun c =>
    (c.name, c.fields.map fun (name, t) => (name, { type := t }))

def inputClasses (s : Schema) : List InputClass :=
  sharedInputs ++ s.lists.flatMap fun l =>
    operationInputs l ++ linkInputs l.names ++ fieldInputs l

/-! ## Outputs -/

/-- An output and where its value comes from. -/
structure Output where
  name : String
  type : TypeExpr
  args : List (String × Arg) := []
  description : Option String := none
  source : Source := .part

def recordOutputs (l : ListType) : List Output :=
  let make (name : String) (o : FieldOutput) (source : Source) : Output :=
    { name, type := o.type, args := o.args, description := o.description, source }
  l.fields.flatMap fun (key, f) =>
    (f.output.toList.map fun o => make key o (.output f))
      ++ f.extraOutputs.map fun (name, o) => make name o (.extra f name)

def queries (l : ListType) : List Output :=
  let n := l.names
  let record := TypeExpr.outputClass "" n.output
  [{ name := n.plural
     type := .list .typing record
     args := n.searchArgs
     description := "Search " ++ l.key ++ " records."
     source := .search l.key },
   { name := n.singular
     type := record.optional
     args := [("where", { type := ListNames.inputType n.uniqueInput })]
     description := "Read one " ++ l.key ++ " record."
     source := .single l.key },
   { name := n.count
     type := .scalar .integer
     args := [("where", n.filterArg)]
     description := "Count " ++ l.key ++ " records."
     source := .tally l.key }]

def mutations (l : ListType) : List Output :=
  let n := l.names
  let record := (TypeExpr.outputClass "" n.output).optional
  let unique : Arg := { type := ListNames.inputType n.uniqueInput }
  [{ name := n.create
     type := record
     args := [("data", { type := ListNames.inputType n.createInput })]
     description := "Create one " ++ l.key ++ " record."
     source := .create l.key },
   { name := n.update
     type := record
     args := [("where", unique), ("data", { type := ListNames.inputType n.updateInput })]
     description := "Update one " ++ l.key ++ " record."
     source := .update l.key }]

/-- The name of the function behind an output of the records of a list. -/
def resolverName (list output : String) : String :=
  "resolve_" ++ list ++ "_" ++ output

/-- The functions behind the outputs of the records of a list. -/
def recordSignatures (l : ListType) : List Signature :=
  (recordOutputs l).map fun o => .ofArgs (resolverName l.key o.name) o.args

/-- The functions behind the queries and mutations of a list. -/
def rootSignatures (l : ListType) : List Signature :=
  (queries l ++ mutations l).map fun o => .ofArgs o.name o.args

/-- Whether the classes of a list can be made. The fields of an input are set by their names. -/
def hasClasses (l : ListType) : Bool :=
  (operationInputs l).all (fun (_, fields) => fields.all fun (name, _) => isNameWord name)
    && (recordSignatures l).all (·.isReadable)

/-- Adds an output; one of the same name gives up its place to it. -/
def putOutput (os : List Output) (o : Output) : List Output :=
  if os.any fun p => p.name == o.name then os.map fun p => if p.name == o.name then o else p
  else os ++ [o]

/-! ## Definitions -/

def reference (t : TypeExpr) : Except Fault TypeRef :=
  match t.ref? with
  | some r => .ok r
  | none => .error .graph

/-- The definition of an argument. -/
def InputDef.ofArg (name : String) (a : Arg) : Except Fault InputDef := do
  return {
    name
    type := ← reference a.type
    default := if a.hasDefault then some a.default else none
    description := a.description }

def TypeDef.ofInput (c : InputClass) : Except Fault TypeDef := do
  return { name := c.1, body := .input (← c.2.mapM fun (name, a) => InputDef.ofArg name a) }

def OutputDef.ofOutput (o : Output) : Except Fault OutputDef := do
  return {
    name := o.name
    type := ← reference o.type
    args := ← o.args.mapM fun (name, a) => InputDef.ofArg name a
    description := o.description
    source := o.source }

/-- The definition of an object class. -/
def TypeDef.ofOutputs (name : String) (description : Option String) (os : List Output) :
    Except Fault TypeDef := do
  return { name, description, body := .object (← os.mapM OutputDef.ofOutput) }

/-- The object classes that the fields of a list bring along. -/
def partClasses (l : ListType) : List (String × List Output) :=
  l.fields.flatMap fun (_, f) => (f.classes.filter fun c => !c.isInput).map fun c =>
    (c.name, c.fields.map fun (name, type) => { name, type })

/-- The declared types that the fields of a list mention. -/
def mentioned (l : ListType) : List TypeExpr :=
  l.fields.flatMap fun (_, f) =>
    (f.inputs.filterMap fun i => i.2.arg.map (·.type))
      ++ ((f.output.toList ++ f.extraOutputs.map Prod.snd).flatMap fun o =>
        o.type :: o.args.map fun a => a.2.type)
      ++ f.classes.flatMap fun c => c.fields.map Prod.snd

def enumTypes (s : Schema) : List TypeDef :=
  ((.direction :: queryMode :: s.lists.flatMap mentioned).flatMap TypeExpr.enums).map
    fun (name, members) => { name, body := .enum members }

def definitions (s : Schema) : Except Fault (List TypeDef) := do
  let inputs ← (inputClasses s).mapM TypeDef.ofInput
  let records ← s.lists.mapM fun l => TypeDef.ofOutputs l.names.output l.description (recordOutputs l)
  let parts ← (s.lists.flatMap partClasses).mapM fun (name, os) => TypeDef.ofOutputs name none os
  let query ← TypeDef.ofOutputs "Query" none ((s.lists.flatMap queries).foldl putOutput [])
  let mutation ← TypeDef.ofOutputs "Mutation" none ((s.lists.flatMap mutations).foldl putOutput [])
  return query :: mutation :: scalarTypes ++ enumTypes s ++ inputs ++ records ++ parts

/-- The definitions that names lead to, those behind each before the next. -/
def reachable (all : List TypeDef) : (steps : Nat) → List String → List TypeDef → Except Fault (List TypeDef)
  | 0, _, seen => .ok seen
  | _ + 1, [], seen => .ok seen
  | steps + 1, name :: rest, seen =>
    if seen.any fun t => t.name == name then reachable all steps rest seen
    else
      match all.find? fun t => t.name == name with
      | none => .error .graph
      | some t => reachable all steps (t.references ++ rest) (seen ++ [t])

/-! ## Well-formed names -/

/-- Whether a text is a name of the query language. -/
def isName (s : String) : Bool :=
  match s.toList with
  | [] => false
  | c :: r => (c.isAlpha || c == '_') && r.all fun d => d.isAlphanum || d == '_'

/-- The words that no member of an enumeration may be named by. -/
def literalWords : List String := ["true", "false", "null"]

/-- Whether all names of a definition are names of the query language. -/
def isNamed (t : TypeDef) : Bool :=
  t.names.all isName && match t.body with
  | .enum ms => ms.all fun m => !literalWords.contains m.1
  | _ => true

/-- Whether a name is kept for the query language itself. -/
def isIntrospective (s : String) : Bool :=
  "__".toList.isPrefixOf s.toList

/-- What is wrong with a definition whose names are names. -/
def problems (t : TypeDef) : List String :=
  let reserved (names : List String) := (names.filter isIntrospective).map fun n =>
    "Name " ++ Text.quote n ++ " must not begin with '__', which is reserved by GraphQL introspection."
  let empty := match t.body with
    | .input [] => ["Input Object type " ++ t.name ++ " must define one or more fields."]
    | .object [] => ["Type " ++ t.name ++ " must define one or more fields."]
    | _ => []
  reserved [t.name] ++ empty ++ reserved (t.names.drop 1)

/-- What the queries and mutations of a schema lead to, if it is well-formed. -/
def Catalogue.collect (s : Schema) : Except Fault Catalogue := do
  let all ← definitions s
  let steps := all.foldl (fun n t => n + t.references.length) 3
  let types ← reachable all steps ["Query", "Mutation"] []
  if !types.all isNamed then throw .graph
  match types.flatMap problems with
  | [] => return { types }
  | ps => throw (.value (.api ps))

/-- The query API of a schema. The functions behind the queries and mutations are made first. -/
def Catalogue.ofSchema (s : Schema) : Except Fault Catalogue := do
  if !s.lists.all fun l => (rootSignatures l).all (·.isReadable) then
    throw .badName
  collect s

end RecordSchema.Graph

namespace RecordSchema

/-- The schema of the declared lists, with the classes for their records and inputs made. -/
def Declarations.toSchema (d : Declarations) : Except Fault Schema := do
  let s ← d.compile
  if !s.lists.all Graph.hasClasses then throw .badName
  return s

end RecordSchema
