import RecordSchema.Graph.Request
import RecordSchema.Request.Read

/-!
# Running requests

A checked request is run field by field. A field that fails is null, and
the response tells where and why. Where null is not allowed, the nearest
enclosing value that may be null is null instead, and of all that failed
within it only the first failure, in the order of the selections, is
told.

Queries read one store. The fields of a mutation are run one after the
other, and each is answered before the next one writes.
-/

namespace RecordSchema.Graph

/-! ## Outcomes -/

/-- A step from a value of a response into it. -/
inductive PathStep where
  | key (name : String)
  | index (n : Nat)
deriving DecidableEq

/-- A failure and where in the response it belongs. -/
structure Failure where
  path : List PathStep
  fault : Fault

/-- What answering a part of a request yields: the answer, with the failures of
parts that are null in it, or the failure that leaves no answer. -/
abbrev Answer := Except Failure (Value × List Failure)

namespace Answer

/-- An answer without failures. -/
def ofValue (v : Value) : Answer :=
  .ok (v, [])

/-- Makes a failure of a part null, where null is allowed. -/
def settle (t : TypeRef) (a : Answer) : Answer :=
  match a with
  | .error f => if t.isRequired then .error f else .ok (.null, [f])
  | a => a

end Answer

/-! ## Completing values -/

def completeItems (item : List PathStep → Value → Answer) (path : List PathStep) :
    (i : Nat) → List Value → Except Failure (List Value × List Failure)
  | _, [] => .ok ([], [])
  | i, v :: r => do
    let (w, fs) ← item (path ++ [.index i]) v
    let (ws, gs) ← completeItems item path (i + 1) r
    return (w :: ws, fs ++ gs)

namespace Catalogue

/-- The name of the member of an enumeration that a value stands for. -/
def memberName? (ms : List (String × Value)) : Value → Option String
  | .member _ v => (ms.find? fun m => m.2.same v).map Prod.fst
  | v => (ms.find? fun m => m.2.same v).map Prod.fst

/-- Gives a value of a scalar type or an enumeration to the client. -/
def writeLeaf (c : Catalogue) (name : String) (v : Value) : Except Fault Value :=
  match c.body? name with
  | some (.scalar s) => s.write v
  | some (.enum ms) =>
    match memberName? ms v with
    | some n => .ok (.text n)
    | none => .error .graph
  | _ => .error .graph

/-- Completes a value of a type; `object` answers what is selected of an object. -/
def complete (c : Catalogue) (object : Option (List PathStep → Value → Answer)) :
    TypeRef → List PathStep → Value → Answer
  | .required t, path, v =>
    match c.complete object t path v with
    | .ok (.null, _) => .error ⟨path, .wrongKind⟩
    | a => a
  | .list t, path, v =>
    match v with
    | .null => .ofValue .null
    | .list vs =>
      (completeItems (fun p v => (c.complete object t p v).settle t) path 0 vs).map fun (ws, fs) =>
        (.list ws, fs)
    | _ => .error ⟨path, .graph⟩
  | .named n, path, v =>
    if v.isNull then .ofValue .null
    else
      match object with
      | some answer => answer path v
      | none =>
        match c.writeLeaf n v with
        | .ok w => .ofValue w
        | .error f => .error ⟨path, f⟩

end Catalogue

/-! ## Resolving fields -/

/-- A record in place of one that may be missing. -/
def ofRecord? : Option Record → Value
  | some r => .map r
  | none => .null

/-- The value of an argument, null when there is none. -/
def argument (args : List (String × Value)) (name : String) : Value :=
  (args.lookup name).getD .null

/-- The record that an output is computed from. -/
def recordOf (owner : Value) : Except Fault Record :=
  match owner with
  | .map r => .ok r
  | _ => .error .wrongKind

/-- The value of a field that only reads; none for arguments that it cannot be
called with. -/
def resolve (r : Reader) (owner : Value) (f : OutputDef) (args : List (String × Value)) :
    Except Fault Value :=
  match f.source with
  | .search list => do
    let q ← Search.ofArgs (.received args)
    return .list ((← r.findMany list q).map .map)
  | .single list => do
    return ofRecord? (← r.findOne list (argument args "where").plain)
  | .tally list => do
    let q ← Search.ofArgs { filter := argument args "where" }
    return .int (← r.count list q.filter)
  | .output g => do
    let record ← recordOf owner
    let v ← Reader.fieldValue g.list g record
    g.resolveOutput r.reach (r.call record v args)
  | .extra g name => do
    let record ← recordOf owner
    let v ← Reader.fieldValue g.list g record
    g.resolveExtra r.reach name (r.call record v args)
  | .part =>
    match owner with
    | .object _ fs => .ok ((fs.lookup f.name).getD .null)
    | _ => .error .wrongKind
  | _ => .error .wrongKind

/-- The value of a field of a mutation. -/
def perform (w : Worker) (f : OutputDef) (args : List (String × Value)) : Work Value :=
  match f.source with
  | .create list => do
    return .map (← w.create list (argument args "data").plain)
  | .update list => do
    return .map (← w.update list (argument args "where").plain (argument args "data").plain)
  | _ => throw .wrongKind

/-! ## Running -/

/-- Answers a field that has yielded a value or failed. -/
def answerField (c : Catalogue) (object : Option (List PathStep → Value → Answer))
    (f : OutputDef) (path : List PathStep) (outcome : Except Fault Value) : Answer :=
  Answer.settle f.type <|
    match outcome with
    | .ok v => c.complete object f.type path v
    | .error fault => .error ⟨path, fault⟩

def calledWith (args : Option (List (String × Value))) : Except Fault (List (String × Value)) :=
  match args with
  | some as => .ok as
  | none => .error .wrongKind

/-- How an object is answered, if anything is selected of it. -/
def objectAnswer (inner : List Choice)
    (all : List PathStep → Value → Except Failure (Value.Entries × List Failure)) :
    Option (List PathStep → Value → Answer) :=
  if inner.isEmpty then none else some fun path v => (all path v).map fun (es, fs) => (.map es, fs)

mutual

def select (c : Catalogue) (r : Reader) (path : List PathStep) (owner : Value) : Choice → Answer
  | .className _ name => .ofValue (.text name)
  | .field _ f args inner =>
    answerField c (objectAnswer inner fun p v => selectAll c r p v inner) f path
      (do resolve r owner f (← calledWith args))

/-- Answers selections from an object. -/
def selectAll (c : Catalogue) (r : Reader) (path : List PathStep) (owner : Value) :
    List Choice → Except Failure (Value.Entries × List Failure)
  | [] => .ok ([], [])
  | x :: xs => do
    let (v, fs) ← select c r (path ++ [.key x.key]) owner x
    let (es, gs) ← selectAll c r path owner xs
    return ((.text x.key, v) :: es, fs ++ gs)

end

/-- Runs one field of a mutation and answers it. -/
def mutate (c : Catalogue) (w : Worker) : Choice → StateM Session Answer
  | .className _ name => return .ofValue (.text name)
  | .field key f args inner => do
    let outcome ← (do perform w f (← Work.ofExcept (calledWith args)) : Work Value).run
    let r : Reader := { db := w.db, store := (← get).store, context := w.context }
    return answerField c (objectAnswer inner fun p v => selectAll c r p v inner) f [.key key] outcome

/-- Runs the fields of a mutation one after the other. -/
def mutateAll (c : Catalogue) (w : Worker) :
    List Choice → StateM Session (Except Failure (Value.Entries × List Failure))
  | [] => return .ok ([], [])
  | x :: xs => do
    let a ← mutate c w x
    let rest ← mutateAll c w xs
    return do
      let (v, fs) ← a
      let (es, gs) ← rest
      return ((.text x.key, v) :: es, fs ++ gs)

/-! ## Responses -/

/-- The response to a request. -/
structure Response where
  data : Value
  failures : List Failure
  /-- Whether storage was called on. -/
  reached : Bool

def Response.malformed : Response where
  data := .null
  failures := [⟨[], .graph⟩]
  reached := false

def Response.ofAnswers (reached : Bool) (a : Except Failure (Value.Entries × List Failure)) : Response :=
  match a with
  | .ok (es, fs) => { data := .map es, failures := fs, reached }
  | .error f => { data := .null, failures := [f], reached }

/-- The answers of fields that all fail for want of storage. -/
def unreached (c : Catalogue) : List Choice → Except Failure (Value.Entries × List Failure)
  | [] => .ok ([], [])
  | x :: xs => do
    let (v, fs) ← match x with
      | .className _ name => Answer.ofValue (.text name)
      | .field key f _ _ => answerField c none f [.key key] (.error (.value .noSession))
    let (es, gs) ← unreached c xs
    return ((.text x.key, v) :: es, fs ++ gs)

/-- Runs a request. Without storage every field fails. -/
def run (c : Catalogue) (w : Worker) (hasStorage : Bool) (q : Request) : StateM Session Response := do
  match c.choices? q with
  | none => return .malformed
  | some xs =>
    let reached := hasStorage && xs.any Choice.isCall
    if !hasStorage then return .ofAnswers reached (unreached c xs)
    else
      match q.kind with
      | .mutation => return .ofAnswers reached (← mutateAll c w xs)
      | .query =>
        let r : Reader := { db := w.db, store := (← get).store, context := w.context }
        return .ofAnswers reached (selectAll c r [] .null xs)

end RecordSchema.Graph
