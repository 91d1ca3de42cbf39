import RecordSchema.Graph.Catalogue
import RecordSchema.Graph.Scalar

/-!
# Reading arguments

The values of arguments are read against their types: texts become
members of enumerations, ISO texts dates, mappings input objects. An
input object has every field of its class, in the order of the class; a
field that was not sent has its default, or else is unset. A single
value stands for a list of one.

A value that does not fit its type makes the whole request malformed, so
there is nothing to say about it but that.
-/

namespace RecordSchema.Graph

/-- The fields of an input object, given those that were sent. -/
def completeFields (sent : List (String × Value)) : List InputDef → Option (List (String × Value))
  | [] => some []
  | f :: r => do
    let v ← match sent.lookup f.name, f.default with
      | some v, _ => some v
      | none, some v => some v
      | none, none => if f.type.isRequired then none else some .unset
    let rest ← completeFields sent r
    some ((f.name, v) :: rest)

namespace Catalogue

mutual

/-- Reads a value of a type; none when it does not fit. -/
def read? (c : Catalogue) (t : TypeRef) (v : Value) : Option Value :=
  match t with
  | .required t => if v.isPresent then c.read? t v else none
  | .list t =>
    match v with
    | .null => some .null
    | .list vs => (c.readAll? t vs).map .list
    | .tuple vs => (c.readAll? t vs).map .list
    | v => (c.read? t v).map fun w => .list [w]
  | .named n =>
    if v.isNull then some .null
    else
      match c.body? n with
      | some (.scalar s) => s.read? v
      | some (.enum ms) =>
        match v with
        | .text s => (ms.lookup s).map (.member n)
        | _ => none
      | some (.input fs) =>
        match v with
        | .map es => do
          let sent ← c.readFields? fs es
          let fields ← completeFields sent fs
          some (.input n fields)
        | _ => none
      | _ => none
termination_by (sizeOf v, sizeOf t)

def readAll? (c : Catalogue) (t : TypeRef) (vs : List Value) : Option (List Value) :=
  match vs with
  | [] => some []
  | v :: r => do
    let w ← c.read? t v
    let ws ← c.readAll? t r
    some (w :: ws)
termination_by (sizeOf vs, 0)

/-- Reads the fields of an input object; none may be unknown. -/
def readFields? (c : Catalogue) (fs : List InputDef) (es : List (Value × Value)) :
    Option (List (String × Value)) :=
  match es with
  | [] => some []
  | (k, v) :: r => do
    let f ← fs.find? fun f => k.isText f.name
    let w ← c.read? f.type v
    let rest ← c.readFields? fs r
    some ((f.name, w) :: rest)
termination_by (sizeOf es, 0)

end

end Catalogue

end RecordSchema.Graph
