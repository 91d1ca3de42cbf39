import RecordSchema.Fault
import RecordSchema.Shape.Subtype

/-!
# Resolver obligations

A resolver turns the value of an argument into the value that storage
expects. When every value that the argument can yield already has the
target shape, the resolver may be left out and the value is taken as it
is; otherwise the resolver is mandatory. An author may settle the
question by declaring the argument compatible or not.
-/

namespace RecordSchema

/-- The declaration of an argument. -/
structure Arg where
  type : TypeExpr
  /-- The default, `unset` for none. -/
  default : Value := .unset
  description : Option String := none
  /-- Whether the author declares the values fit for storage. -/
  assumeCompatible : Option Bool := none

def Arg.hasDefault (a : Arg) : Bool :=
  !a.default.isUnset

def Operation.read (v : Value) : Except Fault Operation :=
  match v with
  | .text s =>
    match Spelled.ofText? s with
    | some op => .ok op
    | none => .error (.value (.vocabulary .operation v))
  | _ => .error (.value (.vocabulary .operation v))

/-- Whether a resolver may be left out. -/
inductive Obligation where
  | optional
  | mandatory
deriving DecidableEq

/-- Why the obligation is what it is. -/
inductive ObligationReason where
  /-- The values of the argument have the target shape. -/
  | fits
  | notSettable
  | noArgument
  | declared
  | tooWide (input target : Shape)

def ObligationReason.message : ObligationReason → String
  | .fits => ""
  | .notSettable => "field is not settable at create time; the resolver must produce the value"
  | .noArgument => "no argument"
  | .declared => "declared by schema author"
  | .tooWide input target =>
    "argument values " ++ input.describe ++ " are not all valid " ++ target.describe

/-- The verdict on one operation of a field. -/
structure Verdict where
  operation : Operation
  obligation : Obligation
  input : Shape
  target : Shape
  reason : ObligationReason

def Verdict.isMandatory (v : Verdict) : Bool :=
  v.obligation == .mandatory

/-- The shape of the values that reach the resolver. A filter resolver never
sees an argument that was left out; a resolver of unique filters or
orderings sees no null either. -/
def Arg.inputShape (a : Arg) (op : Operation) : Except Fault Shape := do
  let shape ← (a.type.argumentShape a.hasDefault).mapError Fault.argumentType
  return match op with
    | .filter => shape.without [.undefined]
    | .identify | .order => shape.without [.null, .undefined]
    | _ => shape

/-- Compares the values of the argument with the target shape of the operation. -/
def Storage.obligation (s : Storage) (op : Operation) (arg : Option Arg) : Except Fault Verdict := do
  let target ← (s.shape op).mapError Fault.kind
  match arg with
  | Option.none =>
    return if op = .create then ⟨op, .mandatory, .undefined, target, .notSettable⟩
      else ⟨op, .optional, .undefined, target, .noArgument⟩
  | some a =>
    let input ← a.inputShape op
    match a.assumeCompatible with
    | some true => return ⟨op, .optional, input, target, .declared⟩
    | some false => return ⟨op, .mandatory, input, target, .declared⟩
    | Option.none =>
      return if input.isSubtype target then ⟨op, .optional, input, target, .fits⟩
        else ⟨op, .mandatory, input, target, .tooWide input target⟩

end RecordSchema
