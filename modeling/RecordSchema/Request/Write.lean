import RecordSchema.Request.Resolve
import RecordSchema.Store.Links
import RecordSchema.Supply

/-!
# Writing records

Creating and updating records. All input is resolved before the first
write. A new record is stored with its defaults and linked afterwards,
and links may create further records on the way. A write that fails half
way leaves what it has stored.
-/

namespace RecordSchema

/-- What writing changes: the store, and how much of the supply is used. -/
structure Session where
  store : Store := {}
  supply : Supply

/-- Work on a session; what was done before a fault stays done. -/
abbrev Work (α : Type) := ExceptT Fault (StateM Session) α

/-- How a request is worked on. -/
structure Worker where
  db : Database
  setPolicy : SetPolicy
  context : Value := .null

namespace Work

/-- The outcome of something that changes nothing. -/
def ofExcept {α : Type} (r : Except Fault α) : Work α :=
  match r with
  | .ok a => pure a
  | .error f => throw f

def store : Work Store := do
  return (← get).store

def setStore (s : Store) : Work Unit :=
  modify fun w => { w with store := s }

/-- Draws generated values from the supply. -/
def generate {α : Type} (g : Generated α) : Work α := do
  let (a, supply) ← ofExcept (g.run (← get).supply)
  modify fun w => { w with supply }
  return a

end Work

namespace Worker

/-! ## Records and links -/

def listOf (w : Worker) (list : String) : Work ListType :=
  Work.ofExcept (Resolve.listOf w.db.schema list)

/-- Stores a new row. -/
def insert (w : Worker) (list : String) (data : Value.Entries) : Work Row := do
  let session ← get
  let (row, store) ← Work.ofExcept (w.db.insert session.store session.supply.now.1 list data)
  Work.setStore store
  return row

/-- Changes the row of an id; without data there is nothing to change. -/
def change (w : Worker) (list : String) (id : Int) (data : Value.Entries) : Work Unit := do
  Work.setStore (← Work.ofExcept (w.db.update (← Work.store) list id data))
  if ((← Work.store).row? list id).isNone then
    throw (.notFound list [(.text "id", .int id)])

def find (w : Worker) (list : String) (filter : Value) : Work (Option Row) := do
  let unique ← Work.ofExcept (Resolve.identify w.db.schema w.context list filter)
  Work.ofExcept (w.db.findOne (← Work.store) list unique)

/-- The fault of a unique filter that names no record. -/
def notFound (list : String) (filter : Value) : Fault :=
  .notFound list (filter.entries?.getD [])

/-- The id of the record that a unique filter names. -/
def require (w : Worker) (list : String) (filter : Value) : Work Int := do
  match ← w.find list filter with
  | some r => return r.id
  | none => throw (notFound list filter)

/-- The ids of the records that unique filters name, all of which must exist. -/
def requireAll (w : Worker) (list : String) : List Value → Work (List Int)
  | [] => return []
  | f :: r => do
    let id ← w.require list f
    return id :: (← w.requireAll list r)

/-- The ids of the records that unique filters name, as far as they exist. -/
def findAll (w : Worker) (list : String) : List Value → Work (List Int)
  | [] => return []
  | f :: r => do
    let row ← w.find list f
    let ids ← w.findAll list r
    return row.toList.map (·.id) ++ ids

/-- Changes the links of a relation. -/
def relink (w : Worker) (list field : String) (f : Store → RelationPlan → Store) : Work Unit := do
  let plan ← Work.ofExcept (w.db.plan list field)
  Work.setStore (f (← Work.store) plan)

/-- Links a record to targets. -/
def connect (w : Worker) (list field : String) (id : Int) (targets : List Int) : Work Unit :=
  w.relink list field fun s p => s.connect p id targets

/-- Creates several records, one after the other. -/
def createAll (create : String → Value → Work Int) (list : String) : List Value → Work (List Int)
  | [] => return []
  | v :: r => do
    let id ← create list v
    return id :: (← createAll create list r)

/-! ## Actions on links -/

/-- Applies an action on the link to one record. -/
def applyOne (w : Worker) (create : String → Value → Work Int) (list field target : String) (id : Int)
    (a : OneAction) : Work Unit := do
  match a.verb with
  | .disconnect => w.relink list field fun s p => s.disconnect p id none
  | .connect =>
    let t ← w.require target a.value
    w.connect list field id [t]
  | .create =>
    let t ← create target a.value
    w.connect list field id [t]

/-- Applies one step of the changes to the links to many records. -/
def applyStep (w : Worker) (create : String → Value → Work Int) (list field target : String) (id : Int)
    (verb : ManyVerb) (items : List Value) : Work Unit := do
  match verb with
  | .set =>
    let ts ← w.requireAll target items
    w.relink list field fun s p => s.setRelated p id ts
  | .disconnect =>
    let ts ← w.findAll target items
    if !ts.isEmpty then w.relink list field fun s p => s.disconnect p id (some ts)
  | .connect =>
    let ts ← w.requireAll target items
    w.connect list field id ts
  | .create =>
    let ts ← createAll create target items
    w.connect list field id ts

def applySteps (w : Worker) (create : String → Value → Work Int) (list field target : String) (id : Int) :
    List (ManyVerb × List Value) → Work Unit
  | [] => return
  | (verb, items) :: r => do
    w.applyStep create list field target id verb items
    w.applySteps create list field target id r

/-- Applies the actions on the links of a record, in order. -/
def applyLinks (w : Worker) (create : String → Value → Work Int) (list : String) (id : Int) :
    List (String × Resolve.LinkAction) → Work Unit
  | [] => return
  | (field, action) :: r => do
    let plan ← Work.ofExcept (w.db.plan list field)
    match action with
    | .one a => w.applyOne create list field plan.target id a
    | .many p => w.applySteps create list field plan.target id p.steps
    w.applyLinks create list id r

/-! ## Writes -/

/-- Stores the columns of a new record, with its defaults. Answers the row and
what the data do to its links. -/
def insertColumns (w : Worker) (list : String) (data : Value) :
    Work (Row × List (String × Resolve.LinkAction)) := do
  let l ← w.listOf list
  let c ← Work.ofExcept (Resolve.changes l .create w.setPolicy w.context data)
  let values ← Work.generate (Storage.fillAll l.storedFields c.values)
  let row ← w.insert list values
  return (row, c.links)

/-- Changes the columns of a record. Answers what the data do to its links. -/
def changeColumns (w : Worker) (list : String) (id : Int) (data : Value) :
    Work (List (String × Resolve.LinkAction)) := do
  let l ← w.listOf list
  let c ← Work.ofExcept (Resolve.changes l .update w.setPolicy w.context data)
  let values ← Work.generate (Storage.stampAll l.storedFields c.values)
  if !values.isEmpty then w.change list id values
  return c.links

/-- Creates a record and whatever its links create. Answers its id. -/
def createWithin (w : Worker) : (depth : Nat) → (list : String) → (data : Value) → Work Int
  | 0, _, _ => throw .nesting
  | depth + 1, list, data => do
    let (row, links) ← w.insertColumns list data
    w.applyLinks (w.createWithin depth) list row.id links
    return row.id

/-- Creates a record. Answers its id. -/
def createId (w : Worker) (list : String) (data : Value) : Work Int :=
  w.createWithin w.db.depth list data

def recordOf (w : Worker) (list : String) (id : Int) : Work Record := do
  return (((← Work.store).row? list id).map (w.db.record list)).getD []

def create (w : Worker) (list : String) (data : Value) : Work Record := do
  w.recordOf list (← w.createId list data)

def update (w : Worker) (list : String) (filter data : Value) : Work Record := do
  let id ← w.require list filter
  let before ← w.recordOf list id
  let links ← w.changeColumns list id data
  w.applyLinks w.createId list id links
  match (← Work.store).row? list id with
  | some r => return w.db.record list r
  | none => return before

end Worker

end RecordSchema
