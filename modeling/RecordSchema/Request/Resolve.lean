import RecordSchema.Request.Gather
import RecordSchema.Request.Search
import RecordSchema.Schema.Declaration

/-!
# Resolving requests

Client input is resolved field by field before it reaches storage: the
filters, orderings and unique filters of queries, and the data of writes.
Input that names a field which does not take it is refused. Nothing here
looks at a store.

A filter may lead through relations into filters of other lists, and a
resolver may put any filter in place of what it is given, so filters are
followed down to a depth, beyond which they are refused.
-/

namespace RecordSchema

/-- The field of a key that takes input for an operation. -/
def ListType.accepting? (l : ListType) (op : Operation) (key : Value) : Option Field :=
  match key with
  | .text k => (l.field? k).filter fun f => f.accepts op
  | _ => none

namespace Resolve

def listOf (s : Schema) (list : String) : Except Fault ListType :=
  match s.list? list with
  | some l => .ok l
  | none => .error (.key .unknown)

/-! ## Filters -/

/-- Resolves the filters under a logical key, one after the other. -/
def logical (inner : Value → Except Fault Value) (v : Value) : Except Fault Value := do
  let items := match v with
    | .list vs => vs
    | .tuple vs => vs
    | v => [v]
  let rs ← (items.filter fun v => !v.isNull).mapM inner
  return .list rs

/-- Resolves quantified filters, one after the other; null asks for nothing. -/
def quantified (inner : Value → Except Fault Value) : Value.Entries → Except Fault Value.Entries
  | [] => .ok []
  | (q, v) :: r =>
    if v.isNull then quantified inner r
    else do
      let v ← inner v
      let rest ← quantified inner r
      return (q, v) :: rest

/-- Resolves the filter of one field. `inner` resolves filters of other lists. -/
def fieldFilter (inner : String → Value → Except Fault Value) (context : Value) (f : Field) (v : Value) :
    Except Fault Value := do
  let resolved ← f.resolveInput .filter v context
  match f.relation? with
  | none => return resolved
  | some r =>
    match r.mode, resolved with
    | _, .null => return .null
    | .one, resolved => inner r.list resolved
    | .many, .map es => (quantified (inner r.list) es).map .map
    | .many, _ => throw .wrongKind

/-- The outcomes of the entries of a filter; a key that takes no filter is
refused before any outcome counts. -/
def filterOutcomes (inner : String → Value → Except Fault Value) (context : Value) (l : ListType) :
    Value.Entries → Except Fault (List (Outcome Value Value))
  | [] => .ok []
  | (k, v) :: r => do
    if v.isUnset then filterOutcomes inner context l r
    else
      let outcome ←
        if logicalKeys.any fun key => k.isText key then
          pure (k, logical (inner l.key) v)
        else
          match l.accepting? .filter k with
          | none => throw (.query (.notFilterable l.key k))
          | some f => pure (k, fieldFilter inner context f v)
      let rest ← filterOutcomes inner context l r
      return outcome :: rest

def filter (s : Schema) (context : Value) : (depth : Nat) → (list : String) → Value → Except Fault Value
  | 0, _, _ => .error .nesting
  | depth + 1, list, v =>
    if !v.isTruthy then .ok (.map [])
    else
      match v with
      | .map es => do
        let l ← listOf s list
        let os ← filterOutcomes (filter s context depth) context l es
        return .map (← gather list os)
      | _ => .error .wrongKind

/-- Resolves a unique filter, which names exactly one field. -/
def identify (s : Schema) (context : Value) (list : String) (v : Value) : Except Fault Value.Entries := do
  let l ← listOf s list
  let es ← match v with
    | .map es => pure es
    | v => if v.isTruthy then throw .wrongKind else pure []
  match es.filter fun e => e.2.isPresent with
  | [(k, v)] =>
    match l.accepting? .identify k with
    | none => throw (.query (.notIdentifying list k))
    | some f => return [(k, ← f.resolveInput .identify v context)]
  | given =>
    match Value.sortKeys? (given.map Prod.fst) with
    | some keys => throw (.query (.uniqueFilter list keys))
    | none => throw .wrongKind

def order (s : Schema) (context : Value) (list : String) (ks : List SortKey) : Except Fault (List SortKey) := do
  let l ← listOf s list
  ks.mapM fun k =>
    match l.accepting? .order k.field with
    | none => throw (.query (.notOrderable list k.field))
    | some f => return ⟨k.field, ← f.resolveInput .order k.direction context⟩

/-- Resolves the arguments of a search, and its filter down to a depth. -/
def search (s : Schema) (context : Value) (depth : Nat) (list : String) (q : Search) :
    Except Fault Search := do
  let filter ← filter s context depth list q.filter
  let order ← order s context list q.order
  let cursor ← match q.cursor with
    | none => pure none
    | some v => (identify s context list v).map fun es => some (Value.map es)
  return { q with filter, order, cursor }

/-! ## Data -/

/-- The keys of data that name no field which takes them. -/
def unknownKeys (l : ListType) (op : Operation) (keys : List Value) : List Value :=
  keys.filter fun k => (l.accepting? op k).isNone

/-- The entries of data; other values are refused, by their members if they
have any. -/
def dataEntries (l : ListType) (op : Operation) (data : Value) : Except Fault Value.Entries := do
  let keys ← ManyPlan.membersOf data
  match unknownKeys l op keys, data with
  | [], .map es => return es
  | [], _ => throw .wrongKind
  | ks, _ => throw (.query (.notAccepted l.key op ks))

/-- The outcomes of the fields that take input for an operation. A field that
was not sent is resolved at creation only, so that it can be computed. -/
def dataOutcomes (op : Operation) (context : Value) (es : Value.Entries) (fields : List (String × Field)) :
    List (Outcome String Value) :=
  fields.filterMap fun (key, f) =>
    let v := es.get key
    if !f.accepts op || (v.isUnset && op != .create) then none
    else some (key, f.resolveInput op v context)

/-- Resolves the data of a write. -/
def data (l : ListType) (op : Operation) (context : Value) (data : Value) :
    Except Fault (List (String × Value)) := do
  let es ← dataEntries l op data
  let values ← gather l.key (dataOutcomes op context es l.fields)
  return values.filter fun e => !e.2.isUnset

/-- What a write does to the links of a relation. -/
inductive LinkAction where
  | one (a : OneAction)
  | many (p : ManyPlan)

/-- A write after resolution: values for columns, and actions on links. -/
structure Changes where
  values : Value.Entries := []
  links : List (String × LinkAction) := []

/-- The entries of a mapping that were sent. The first entry of a key speaks for it. -/
def sent : Value.Entries → Value.Entries
  | [] => []
  | (k, v) :: r =>
    let others := (sent r).filter fun e => !k.same e.1
    if v.isUnset then others else (k, v) :: others

/-- What the value of a field does in a write. -/
def change (op : Operation) (policy : SetPolicy) (key : String) (s : Storage) (v : Value) :
    Except Fault Changes :=
  match s with
  | .relation r =>
    match r.mode with
    | .one => do
      match ← OneAction.ofValue? op v with
      | none => return {}
      | some a => return { links := [(key, .one a)] }
    | .many => do return { links := [(key, .many (← ManyPlan.ofValue op policy v))] }
  | .multi _ =>
    match v with
    | .map es => .ok { values := [(.text key, .map (sent es))] }
    | _ => .error .wrongKind
  | .none => .ok {}
  | _ => .ok { values := [(.text key, v)] }

/-- Splits resolved data into values and actions on links. -/
def split (l : ListType) (op : Operation) (policy : SetPolicy) :
    List (String × Value) → Except Fault Changes
  | [] => .ok {}
  | (key, v) :: r =>
    match l.field? key with
    | none => split l op policy r
    | some f => do
      let here ← change op policy key f.storage v
      let rest ← split l op policy r
      return { values := here.values ++ rest.values, links := here.links ++ rest.links }

/-- Resolves the data of a write into its changes. -/
def changes (l : ListType) (op : Operation) (policy : SetPolicy) (context data : Value) :
    Except Fault Changes := do
  split l op policy (← Resolve.data l op context data)

end Resolve

end RecordSchema
