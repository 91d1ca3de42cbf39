import RecordSchema.Obligation
import RecordSchema.Shape.Conforms

/-!
# Relation input

What a client may say about a link. A relation to one record takes at
most one of `create`, `connect` and `disconnect`; a relation to many
takes lists of unique filters and of new records, which become a plan
that is applied as `set`, `disconnect`, `connect`, `create`. A verb that
is null or not sent counts as absent.
-/

namespace RecordSchema

/-- How `set` goes together with other verbs. -/
inductive SetPolicy where
  /-- It does not: the input is refused. -/
  | reject
  /-- It is applied first. -/
  | setFirst
deriving DecidableEq, Inhabited

instance : Spelled SetPolicy where
  all := [.reject, .setFirst]
  spelling
    | .reject => "reject"
    | .setFirst => "set_first"

def SetPolicy.read (v : Value) : Except Fault SetPolicy :=
  match v with
  | .text s =>
    match Spelled.ofText? s with
    | some p => .ok p
    | none => .error (.value (.vocabulary .setPolicy v))
  | _ => .error (.value (.vocabulary .setPolicy v))

/-! ## Quantifiers -/

/-- How many related records a filter is about. -/
inductive Quantifier where
  | every
  | some
  | none
deriving DecidableEq, Inhabited

instance : Spelled Quantifier where
  all := [.every, .some, .none]
  spelling
    | .every => "every"
    | .some => "some"
    | .none => "none"

def Quantifier.read (v : Value) : Except Fault Quantifier :=
  match v with
  | .text s =>
    match Spelled.ofText? s with
    | Option.some q => .ok q
    | Option.none => .error (.value (.vocabulary .quantifier v))
  | _ => .error (.value (.vocabulary .quantifier v))

/-- Whether a quantifier holds of a list: `every` of nothing holds. -/
def Quantifier.holds {α : Type} (q : Quantifier) (related : List α) (p : α → Bool) : Bool :=
  match q with
  | .every => related.all p
  | .some => related.any p
  | .none => !related.any p

/-- The members that are looked at before the answer is settled. -/
def Quantifier.visited {α : Type} (q : Quantifier) (related : List α) (p : α → Bool) : List α :=
  let settles (a : α) : Bool := match q with
    | .every => !p a
    | _ => p a
  let before := related.takeWhile fun a => !settles a
  before ++ (related.drop before.length).take 1

/-! ## Relations to one -/

/-- What to do with the link to one record. -/
inductive OneVerb where
  | create
  | connect
  | disconnect
deriving DecidableEq

instance : Spelled OneVerb where
  all := [.create, .connect, .disconnect]
  spelling
    | .create => "create"
    | .connect => "connect"
    | .disconnect => "disconnect"

/-- An action on the link to one record. -/
structure OneAction where
  verb : OneVerb
  value : Value

def OneVerb.allowed (op : Operation) : List OneVerb :=
  if op = .create then [.create, .connect] else [.create, .connect, .disconnect]

/-- The keys of a mapping that name none of the verbs. -/
def unknownKeys (verbs : List String) (es : Value.Entries) : List Value :=
  (es.map Prod.fst).filter fun k => !verbs.any fun v => k.isText v

/-- Whether a verb is asked for; `disconnect: false` is not. -/
def OneVerb.isAsked (es : Value.Entries) (v : OneVerb) : Bool :=
  let given := es.get (Spelled.spelling v)
  given.isPresent &&
    match v, given with
    | .disconnect, .bool false => false
    | _, _ => true

/-- The action that an input asks for, none when it leaves the link alone. -/
def OneAction.ofEntries? (op : Operation) (es : Value.Entries) : Except Fault (Option OneAction) :=
  let allowed := OneVerb.allowed op
  match unknownKeys (allowed.map Spelled.spelling) es with
  | k :: ks => .error (.query (.relationKeys .one op (k :: ks)))
  | [] =>
    match allowed.filter (OneVerb.isAsked es) with
    | [] => .ok none
    | [v] => .ok (some ⟨v, es.get (Spelled.spelling v)⟩)
    | vs =>
      .error (.ambiguous (.severalVerbs (allowed.map Spelled.spelling) (vs.map Spelled.spelling)))

/-- The action that an input value asks for. The operation is looked at only
when there is input. -/
def OneAction.read? (op : Except Fault Operation) (v : Value) : Except Fault (Option OneAction) :=
  match v with
  | .null => .ok none
  | .unset => .ok none
  | .map es => do OneAction.ofEntries? (← op) es
  | _ => .error .wrongKind

/-- The action that an input value asks for in an operation. -/
def OneAction.ofValue? (op : Operation) (v : Value) : Except Fault (Option OneAction) :=
  OneAction.read? (.ok op) v

/-! ## Relations to many -/

/-- The changes to the links to many records. -/
structure ManyPlan where
  set : Option (List Value) := none
  disconnect : List Value := []
  connect : List Value := []
  create : List Value := []

/-- What to do with the links to many records. -/
inductive ManyVerb where
  | set
  | disconnect
  | connect
  | create
deriving DecidableEq

instance : Spelled ManyVerb where
  all := [.connect, .create, .disconnect, .set]
  spelling
    | .set => "set"
    | .disconnect => "disconnect"
    | .connect => "connect"
    | .create => "create"

namespace ManyPlan

/-- The steps of a plan, in the order in which they are applied. `set` is a
step even when it names nothing; the others are left out when empty. -/
def steps (p : ManyPlan) : List (ManyVerb × List Value) :=
  (match p.set with
    | some vs => [(.set, vs)]
    | none => [])
    ++ [(.disconnect, p.disconnect), (.connect, p.connect), (.create, p.create)].filter
      fun s => !s.2.isEmpty

def allowed (op : Operation) : List ManyVerb :=
  if op = .create then [.create, .connect] else [.connect, .create, .disconnect, .set]

def membersOf : Value → Except Fault (List Value)
  | .list vs => .ok vs
  | .tuple vs => .ok vs
  | .map es => .ok (es.map Prod.fst)
  | .text s => .ok (s.toList.map fun c => .text c.toString)
  | _ => .error .wrongKind

/-- The items given under a verb, none when the verb is absent or not allowed. -/
def itemsOf (op : Operation) (es : Value.Entries) (v : ManyVerb) : Except Fault (Option (List Value)) :=
  let given := es.get (Spelled.spelling v)
  if (allowed op).contains v && given.isPresent then (membersOf given).map some else .ok none

/-- The verbs besides `set` that name something. -/
def others (connect disconnect create : List Value) : List String :=
  [("connect", connect), ("disconnect", disconnect), ("create", create)].filterMap
    fun (name, vs) => if vs.isEmpty then none else some name

/-- The plan of an input. The policy is looked at only when `set` comes with
other verbs. -/
def ofEntries (op : Operation) (policy : Except Fault SetPolicy) (es : Value.Entries) :
    Except Fault ManyPlan := do
  match unknownKeys ((allowed op).map Spelled.spelling) es with
  | k :: ks => throw (.query (.relationKeys .many op (k :: ks)))
  | [] =>
    let set ← itemsOf op es .set
    let disconnect := (← itemsOf op es .disconnect).getD []
    let connect := (← itemsOf op es .connect).getD []
    let create := (← itemsOf op es .create).getD []
    let beside := others connect disconnect create
    if set.isSome && !beside.isEmpty then
      if (← policy) = .reject then throw (.ambiguous (.setCombined beside))
    return { set, disconnect, connect, create }

/-- The plan of an input value. The operation is looked at only when there is
input. -/
def read (op : Except Fault Operation) (policy : Except Fault SetPolicy) (v : Value) :
    Except Fault ManyPlan :=
  match v with
  | .null => .ok {}
  | .unset => .ok {}
  | .map es => do ofEntries (← op) policy es
  | _ => .error .wrongKind

def ofValue (op : Operation) (policy : SetPolicy) (v : Value) : Except Fault ManyPlan :=
  read (.ok op) (.ok policy) v

end ManyPlan

end RecordSchema
