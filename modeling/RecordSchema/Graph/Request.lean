import RecordSchema.Graph.Input

/-!
# Requests

A request selects fields, from a query or a mutation down to scalars. A
selection that is made twice is made once, with the fields of both.

`Catalogue.choices?` checks a request against the types: every field
exists, objects are selected from and scalars are not, and every
argument is known and has a value of its type. A request that fails any
of this is malformed and does not run at all.
-/

namespace RecordSchema.Graph

/-- A selected field. -/
inductive Selection where
  | field (name : String) (label : Option String) (args : List (String × Value)) (inner : List Selection)
deriving Inhabited

/-- Whether a request only reads. -/
inductive RequestKind where
  | query
  | mutation
deriving DecidableEq

/-- The name of the object class that a request starts at. -/
def RequestKind.root : RequestKind → String
  | .query => "Query"
  | .mutation => "Mutation"

/-- A request. -/
structure Request where
  kind : RequestKind := .query
  selections : List Selection

/-! ## Merging -/

namespace Selection

/-- The name under which the response holds the field. -/
def key : Selection → String
  | .field name label _ _ => label.getD name

/-- The selections that are made of the field. -/
def inner : Selection → List Selection
  | .field _ _ _ inner => inner

/-- Whether two selections of one key ask for the same. Arguments of two
selections are never the same. -/
def agrees : Selection → Selection → Bool
  | .field m _ as _, .field n _ bs _ => m == n && as.isEmpty && bs.isEmpty

def withInner : Selection → List Selection → Selection
  | .field name label args _, inner => .field name label args inner

mutual

/-- Merges a selection into others; none when it contradicts one of them. -/
def mergeInto (earlier : List Selection) : Selection → Option (List Selection)
  | .field name label args inner => do
    let s : Selection := .field name label args []
    match earlier.find? fun e => e.key == s.key with
    | none =>
      let inner ← mergeAll [] inner
      some (earlier ++ [s.withInner inner])
    | some e =>
      if e.agrees s then
        let inner ← mergeAll e.inner inner
        some (earlier.map fun d => if d.key == s.key then d.withInner inner else d)
      else none

def mergeAll (earlier : List Selection) : List Selection → Option (List Selection)
  | [] => some earlier
  | s :: r => do
    let earlier ← mergeInto earlier s
    mergeAll earlier r

end

end Selection

/-! ## Checking -/

/-- A checked selection. Its arguments are those that the field declares, in
order; none when one is missing that has no default and may be null, in
which case the field cannot be called. -/
inductive Choice where
  | field (key : String) (field : OutputDef) (args : Option (List (String × Value))) (inner : List Choice)
  /-- The name of the object class at hand. -/
  | className (key name : String)

namespace Choice

/-- The name under which the response holds the field. -/
def key : Choice → String
  | .field key _ _ _ => key
  | .className key _ => key

def isCall : Choice → Bool
  | .field .. => true
  | .className .. => false

end Choice

/-- The value of an argument, given those that were sent: the outer option
tells whether the request is well-formed, the inner one whether the field
can be called. -/
def Catalogue.argument? (c : Catalogue) (sent : List (String × Value)) (a : InputDef) :
    Option (Option (String × Value)) :=
  match sent.lookup a.name with
  | some v => (c.read? a.type v).map fun w => some (a.name, w)
  | none =>
    match a.default with
    | some v => some (some (a.name, v))
    | none => if a.type.isRequired then none else some none

def Catalogue.arguments? (c : Catalogue) (sent : List (String × Value)) (as : List InputDef) :
    Option (Option (List (String × Value))) := do
  let names := sent.map Prod.fst
  if !names.Nodup || !names.all (fun n => as.any fun a => a.name == n) then none
  else
    let given ← as.mapM (c.argument? sent)
    some (given.mapM id)

/-- The fields of an object class; none for any other type. -/
def Catalogue.outputs? (c : Catalogue) (name : String) : Option (List OutputDef) :=
  match c.body? name with
  | some (.object fs) => some fs
  | _ => none

namespace Catalogue

def classNameField : String := "__typename"

mutual

/-- Checks a selection from the object class `owner` with the given fields. -/
def choice? (c : Catalogue) (owner : String) (fields : List OutputDef) : Selection → Option Choice
  | .field name label args inner =>
    if name == classNameField then
      if inner.isEmpty && args.isEmpty then some (.className (label.getD name) owner) else none
    else do
      let f ← fields.find? fun f => f.name == name
      let given ← c.arguments? args f.args
      match c.outputs? f.type.base with
      | none => if inner.isEmpty then some (.field (label.getD name) f given []) else none
      | some fs =>
        let inner ← c.choicesFrom? f.type.base fs inner
        if inner.isEmpty then none else some (.field (label.getD name) f given inner)

/-- Checks selections from an object class. -/
def choicesFrom? (c : Catalogue) (owner : String) (fields : List OutputDef) :
    List Selection → Option (List Choice)
  | [] => some []
  | s :: r => do
    let x ← c.choice? owner fields s
    let xs ← c.choicesFrom? owner fields r
    some (x :: xs)

end

def choices? (c : Catalogue) (r : Request) : Option (List Choice) := do
  let fields ← c.outputs? r.kind.root
  let selections ← Selection.mergeAll [] r.selections
  let choices ← c.choicesFrom? r.kind.root fields selections
  if choices.isEmpty then none else some choices

end Catalogue

end RecordSchema.Graph
