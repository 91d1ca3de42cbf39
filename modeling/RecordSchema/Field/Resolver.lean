import RecordSchema.Fault
import RecordSchema.Request.Context
import RecordSchema.Text.Case

/-!
# Resolvers

A resolver is a function between client values and stored values that
may fail. An input resolver sees a value and the context of the request.
An output resolver also sees the record that holds the value and the
arguments of the output field. The outputs of relations are not plain
functions: they follow links through the store.

`Resolver` is a small vocabulary of ready-made resolvers.
-/

namespace RecordSchema

/-- What a resolver is called with. -/
structure Call where
  value : Value
  /-- The record that holds the value, null for input. -/
  item : Value := .null
  context : Value := .null
  args : List (String × Value) := []

/-- Converts an argument value to a stored value. -/
abbrev InputResolver := Call → Except Fault Value

/-- Converts a stored value to an output value. -/
inductive OutputResolver where
  | compute (f : Call → Except Fault Value)
  /-- Yields the record that a relation to one links to. -/
  | follow
  /-- Yields the linked records that the arguments ask for. -/
  | search
  /-- Counts the linked records that the arguments ask for. -/
  | tally

/-- Ready-made resolvers. -/
inductive Resolver where
  /-- The value itself. -/
  | identity
  | const (v : Value)
  /-- Fails with a text. -/
  | fail (message : String)
  /-- Fails in the library's name. -/
  | refuse (message : String)
  /-- Fails as a field that cannot be resolved. -/
  | unresolved (message : String) (path : List String)
  /-- A value in place of an absent one. -/
  | orElse (v : Value)
  /-- Appends to a text. -/
  | append (suffix : String)
  /-- An entry of the context. -/
  | fromContext (key : String)
  /-- An entry of the record. -/
  | fromItem (key : String)
  /-- A text entry of the record in capitals. -/
  | upperItem (key : String)
  /-- An argument of the output field. -/
  | fromArg (name : String)
deriving Inhabited

namespace Resolver

/-- The entry of a mapping, null when there is none. -/
def entry (v : Value) (key : String) : Value :=
  match v with
  | .map es => (Value.Entries.value? es key).getD .null
  | _ => .null

def run (r : Resolver) (c : Call) : Except Fault Value :=
  match r with
  | .identity => .ok c.value
  | .const v => .ok v
  | .fail m => .error (.host m)
  | .refuse m => .error (.stated m)
  | .unresolved m path => .error (.resolution path (.stated m) [])
  | .orElse v => .ok (if c.value.isPresent then c.value else v)
  | .append s =>
    match c.value with
    | .text t => .ok (.text (t ++ s))
    | v => .ok v
  | .fromContext key => .ok (entry c.context key)
  | .fromItem key => .ok (entry c.item key)
  | .upperItem key =>
    match entry c.item key with
    | .text s => .ok (.text (Text.upper s))
    | _ => .error (.host (key ++ " is not text"))
  | .fromArg name => .ok ((c.args.lookup name).getD .null)

end Resolver

end RecordSchema
