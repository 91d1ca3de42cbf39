import RecordSchema.Default
import RecordSchema.Field.Resolver
import RecordSchema.Obligation
import RecordSchema.Shape.Conforms
import RecordSchema.Text.Name

/-!
# Fields

A field type pairs what a field stores with its arguments, resolvers and
outputs. `FieldType.assemble` checks the pair: the storage must be
legal, every wired operation must take input, and an operation whose
argument does not fit storage must have a resolver. The result is a
`Field`, which runs the resolvers and never lets a value pass that does
not have the shape that storage expects.
-/

namespace RecordSchema

/-- The wiring of one input operation. Without an argument the field is not
settable and the resolver makes up the value. -/
structure FieldInput where
  arg : Option Arg := none
  resolve : Option InputResolver := none

/-- The wiring of an output. -/
structure FieldOutput where
  type : TypeExpr
  resolve : Option OutputResolver := none
  description : Option String := none
  args : List (String × Arg) := []

/-- The operation that an input is wired to. -/
inductive Wired where
  | operation (op : Operation)
  /-- A value that names no operation. -/
  | unknown (v : Value)

/-- The operation that a value names, if any. -/
def Wired.read (v : Value) : Wired :=
  match Operation.read v with
  | .ok op => .operation op
  | .error _ => .unknown v

/-- The form of a wired operation in messages. -/
def Wired.describe : Wired → String
  | .operation op => op.describe
  | .unknown v => v.describe

/-- A class of the API that a field brings along: an input class or a class
of outputs, with the types of its fields. -/
structure FieldClass where
  name : String
  isInput : Bool
  fields : List (String × TypeExpr)

/-- A field before it is checked. -/
structure FieldType where
  storage : Storage
  inputs : List (Wired × FieldInput) := []
  output : Option FieldOutput := none
  extraOutputs : List (String × FieldOutput) := []
  /-- What shows the field to administrators, null for the standard view. -/
  views : Value := .null
  /-- What the field adds to the description for administrators. -/
  adminMeta : Option Value := none
  label : Option String := none
  classes : List FieldClass := []

/-- A checked field. -/
structure Field where
  list : String
  key : String
  storage : Storage
  inputs : List (Operation × FieldInput)
  verdicts : List (Operation × Verdict)
  output : Option FieldOutput
  extraOutputs : List (String × FieldOutput)
  label : String
  views : Value
  adminMeta : Option Value
  classes : List FieldClass

/-! ## Assembly -/

/-- Wires inputs to the operations that values name; a later input of the same
name takes the place of an earlier one. -/
def FieldType.wire (inputs : List (Value × FieldInput)) : List (Wired × FieldInput) :=
  let put (ws : List (Value × FieldInput)) (w : Value × FieldInput) :=
    if ws.any fun u => u.1.same w.1 then ws.map fun u => if u.1.same w.1 then (u.1, w.2) else u
    else ws ++ [w]
  (inputs.foldl put []).map fun (v, i) => (.read v, i)

/-- What checking one wired operation yields. -/
inductive InputCheck where
  | refused (problem : String)
  /-- The input is kept; a missing resolver is a problem all the same. -/
  | kept (op : Operation) (verdict : Verdict) (problem : Option String)

def Verdict.problem? (v : Verdict) (resolve : Option InputResolver) : Option String :=
  if v.isMandatory && resolve.isNone then
    some (v.operation.name ++ " resolver is mandatory (" ++ v.reason.message ++ ")")
  else none

def Storage.checkInput (s : Storage) (wired : Wired) (input : FieldInput) :
    Except Fault InputCheck :=
  match wired with
  | .unknown _ => .ok (.refused (wired.describe ++ " is not an input operation"))
  | .operation op =>
    if !op.isInput then .ok (.refused (wired.describe ++ " is not an input operation"))
    else if input.arg.isNone && op != .create then
      .ok (.refused (op.name ++ " input needs an argument"))
    else
      match s.obligation op input.arg with
      | .ok v => .ok (.kept op v (v.problem? input.resolve))
      | .error (.argumentType e) => .ok (.refused (op.name ++ " argument: " ++ e.message))
      | .error f => .error f

def InputCheck.problems : InputCheck → List String
  | .refused p => [p]
  | .kept _ _ p => p.toList

/-- The label of a field: the first one that is given, or else its key for people. -/
def fieldLabel (key : String) (labels : List (Option String)) : String :=
  match labels.filterMap fun l => l.filter fun s => !s.isEmpty with
  | l :: _ => l
  | [] => Name.humanize key

namespace FieldType

/-- Every problem of a field type, and the inputs that are kept. Shapes of an
illegal kind are undefined, so its problems come alone. -/
def checked (t : FieldType) : Except Fault (List String × List (Operation × FieldInput × Verdict)) :=
  match t.storage.problems with
  | p :: ps => .ok (p :: ps, [])
  | [] => do
    let defaults ← t.storage.defaultProblems
    let checks ← t.inputs.mapM fun (w, i) => do return (← t.storage.checkInput w i, i)
    return (defaults ++ checks.flatMap (fun c => c.1.problems), checks.filterMap fun
      | (.kept op v _, i) => some (op, i, v)
      | _ => none)

/-- Checks a field type and turns it into the field `list.key`. -/
def assemble (t : FieldType) (list key : String) (label : Option String) : Except Fault Field := do
  let (problems, inputs) ← t.checked
  match problems.map fun p => list ++ "." ++ key ++ ": " ++ p with
  | p :: ps => throw (.configuration (p :: ps))
  | [] =>
    return {
      list, key
      storage := t.storage
      inputs := inputs.map fun (op, i, _) => (op, i)
      verdicts := inputs.map fun (op, _, v) => (op, v)
      output := t.output
      extraOutputs := t.extraOutputs
      label := fieldLabel key [t.label, label]
      views := t.views
      adminMeta := t.adminMeta
      classes := t.classes }

end FieldType

/-! ## Fields at work -/

namespace Field

def path (f : Field) : List String := [f.list, f.key]

def shape (f : Field) (op : Operation) : Shape :=
  match f.storage.shape op with
  | .ok s => s
  | .error _ => .undefined

def input? (f : Field) (op : Operation) : Option FieldInput :=
  f.inputs.lookup op

def accepts (f : Field) (op : Operation) : Bool :=
  (f.input? op).isSome

def arg? (f : Field) (op : Operation) : Option Arg :=
  (f.input? op).bind (·.arg)

/-- Whether the field is a relation, and which one. -/
def relation? (f : Field) : Option RelationField :=
  match f.storage with
  | .relation r => some r
  | _ => none

/-- Faults of the library pass through a field; any other becomes a fault of
the field. -/
def wrap (f : Field) (name : ResolverName) (fault : Fault) : Fault :=
  if fault.isOwn then fault else .resolution f.path (.failed name fault.message) []

/-- Converts an argument value to the stored value of an operation. -/
def resolveInput (f : Field) (op : Operation) (v context : Value) : Except Fault Value :=
  match f.input? op with
  | none => if v.isUnset then .ok .unset else .error (.resolution f.path (.notAccepted op) [])
  | some input => do
    let result ← match input.resolve with
      | none => pure v
      | some g => (g { value := v, context }).mapError (f.wrap (.input op))
    if (f.shape op).conforms result then return result
    else throw (.resolution f.path (.wrongInput op result (f.shape op)) [])

/-- How output resolvers of relations reach linked records: the accessor of a
relation and the arguments of the output field. -/
structure Reach where
  one : Value → Except Fault Value
  many : Value → List (String × Value) → Except Fault Value
  count : Value → List (String × Value) → Except Fault Value

/-- A reach for values outside any store. -/
def Reach.nowhere : Reach where
  one _ := .error .wrongKind
  many _ _ := .error .wrongKind
  count _ _ := .error .wrongKind

def callOutput (reach : Reach) (r : OutputResolver) (c : Call) : Except Fault Value :=
  match r with
  | .compute g => g c
  | .follow => reach.one c.value
  | .search => reach.many c.value c.args
  | .tally => reach.count c.value c.args

def resolveOutput (f : Field) (reach : Reach) (c : Call) : Except Fault Value :=
  if !(f.shape .output).conforms c.value then
    .error (.resolution f.path (.wrongStored c.value (f.shape .output)) [])
  else
    match f.output.bind (·.resolve) with
    | none => .ok c.value
    | some r => (callOutput reach r c).mapError (f.wrap .output)

/-- Converts a stored value to the value of an additional output. -/
def resolveExtra (f : Field) (reach : Reach) (name : String) (c : Call) : Except Fault Value :=
  match f.extraOutputs.lookup name with
  | none => .error (.key .unknown)
  | some o =>
    match o.resolve with
    | none => .ok c.value
    | some r => (callOutput reach r c).mapError (f.wrap (.extra name))

def describeForAdmin (f : Field) : Except Fault Value.Entries :=
  let base : Value.Entries :=
    [(.text "label", .text f.label), (.text "views", f.views)]
  match f.adminMeta with
  | none => .ok base
  | some (.map es) => .ok (es.foldl (fun acc e => Value.Entries.putAny acc e.1 e.2) base)
  | some v => if v.isTruthy then .error .wrongKind else .ok base

end Field

end RecordSchema
