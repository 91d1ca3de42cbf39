import RecordSchema.Store.Record

/-!
# Queries

Reading from a store. `select` gives the rows of a list of which a
condition is true, ordered by sort keys and then by id, so that every
row has its place and pages are stable. A page is a slice of that list;
a cursor starts the slice behind the row that it names.
-/

namespace RecordSchema

/-- A sort key of rows. -/
structure RowOrder where
  column : String
  descending : Bool
deriving DecidableEq

/-- What a query asks for, with a condition in place of a filter. -/
structure Query where
  condition : Condition := .all []
  order : List RowOrder := []
  take : Option Int := none
  skip : Int := 0
  /-- The condition that names the row behind which the page starts, and the
  filter that it comes from. -/
  cursor : Option (Condition × Value.Entries) := none

namespace RowOrder

def compare (k : RowOrder) (a b : Row) : Ordering :=
  let o := (a.cell k.column).order (b.cell k.column)
  if k.descending then o.swap else o

/-- Compares two rows by several keys and then by id. -/
def compareAll : List RowOrder → Row → Row → Ordering
  | [], a, b => Ord.compare a.id b.id
  | k :: ks, a, b => (k.compare a b).then (compareAll ks a b)

/-- Whether a row does not come behind another. -/
def before (ks : List RowOrder) (a b : Row) : Bool :=
  compareAll ks a b != .gt

end RowOrder

/-! ## Slices -/

/-- The place that an offset into a list of a length names; a negative offset
counts from the end. -/
def placeIn (length : Nat) (offset : Int) : Nat :=
  if offset < 0 then (length + offset).toNat else min offset.toNat length

def sliceFrom {α : Type} (xs : List α) (offset : Int) : List α :=
  xs.drop (placeIn xs.length offset)

/-- The members before an offset. -/
def sliceTo {α : Type} (xs : List α) (offset : Int) : List α :=
  xs.take (placeIn xs.length offset)

/-- A page: skips, then takes. A negative count skips nothing and takes all. -/
def page {α : Type} (xs : List α) (skip : Int) (take : Option Int) : List α :=
  let rest := xs.drop skip.toNat
  match take with
  | none => rest
  | some n => if n < 0 then rest else rest.take n.toNat

/-- The rows behind the row of an id, none when the id is not among them. -/
def rowsBehind (rows : List Row) (id : Int) : List Row :=
  (rows.dropWhile fun r => r.id != id).drop 1

/-- The offset behind the row of an id; the end when the id is not there. -/
def offsetBehind (rows : List Row) (id : Int) : Nat :=
  rows.length - (rowsBehind rows id).length

def pageBehind (rows : List Row) (id : Int) (skip : Int) (take : Option Int) : List Row :=
  let rest := sliceFrom rows (offsetBehind rows id + skip)
  match take with
  | none => rest
  | some n => sliceTo rest n

/-! ## Selection -/

namespace Store

/-- The rows of a list of which a condition is true, among certain rows, in order. -/
def select (s : Store) (list : String) (among : Row → Bool) (c : Condition) (order : List RowOrder) :
    List Row :=
  ((s.rows list).filter fun r => among r && c.selects s r).mergeSort (RowOrder.before order)

def selectOne (s : Store) (list : String) (c : Condition) : Option Row :=
  (s.select list (fun _ => true) c []).head?

def run (s : Store) (list : String) (among : Row → Bool) (q : Query) : Except Fault (List Row) :=
  let rows := s.select list among q.condition q.order
  match q.cursor with
  | none => .ok (page rows q.skip q.take)
  | some (c, filter) =>
    match s.selectOne list c with
    | none => .error (.notFound list filter)
    | some r => .ok (pageBehind rows r.id q.skip q.take)

/-- The number of certain rows of which a condition is true. -/
def count (s : Store) (list : String) (among : Row → Bool) (c : Condition) : Nat :=
  ((s.rows list).filter fun r => among r && c.selects s r).length

/-- Whether a row is among those that the relation yields for an owner's id. -/
def isReached (s : Store) (plan : RelationPlan) (owner : Int) (target : Row) : Bool :=
  match plan.link with
  | .ownKey column _ =>
    match s.row? plan.list owner with
    | some own => (own.cell column).isKey target.id
    | none => false
  | .targetKey column _ => (target.cell column).isKey owner
  | .join table side => (s.linksFrom table side).contains (owner, target.id)

end Store

/-! ## Queries on lists -/

/-- Whether a page number fits storage. -/
def checkPage (skip : Int) (take : Option Int) : Except Fault Unit :=
  if fitsWord skip && (take.all fitsWord) then .ok () else .error .overflow

namespace Database

/-- The sort key of rows for a sort key of records. -/
def rowOrder (db : Database) (list : String) (k : SortKey) : Except Fault RowOrder := do
  let key ← Filter.fieldKey k.field
  let column ← db.layout.column list key
  return { column, descending := k.direction.isText "desc" }

/-- The conditions that every entry of a unique filter holds. -/
def entryConditions (db : Database) (list : String) : Value.Entries → Reading (List Condition)
  | [] => return []
  | (k, v) :: r => do
    let key ← liftM (Filter.fieldKey k)
    let column ← liftM (db.layout.column list key)
    let type := (db.layout.columnType? list column).getD .string
    let test ← Filter.equalsTest { column, type, textual := false } false v
    return .cell column test :: (← entryConditions db list r)

/-- The condition that every entry of a unique filter holds. -/
def uniqueCondition (db : Database) (list : String) (filter : Value.Entries) :
    Except Fault Condition :=
  (do return .all (← entryConditions db list filter) : Reading Condition).settle

/-- The rows of a list that a search asks for, among certain rows. -/
def search (db : Database) (s : Store) (list : String) (among : Row → Bool) (q : Search) :
    Except Fault (List Row) := do
  let reading ← (Filter.condition db list q.filter).run []
  let order ← q.order.mapM (db.rowOrder list)
  let condition ← Reading.settle (fun _ => .ok reading)
  match q.cursor with
  | none =>
    checkPage q.skip q.take
    s.run list among { condition, order, take := q.take, skip := q.skip }
  | some v =>
    let filter := v.entries?.getD []
    let unique ← db.uniqueCondition list filter
    s.run list among { condition, order, take := q.take, skip := q.skip, cursor := some (unique, filter) }

def findMany (db : Database) (s : Store) (list : String) (q : Search) : Except Fault (List Row) := do
  let _ ← db.table list
  db.search s list (fun _ => true) q

/-- The row that a unique filter names. -/
def findOne (db : Database) (s : Store) (list : String) (filter : Value.Entries) :
    Except Fault (Option Row) := do
  let _ ← db.table list
  return s.selectOne list (← db.uniqueCondition list filter)

/-- The number of certain rows that a filter selects. -/
def tally (db : Database) (s : Store) (list : String) (among : Row → Bool) (filter : Value) :
    Except Fault Nat := do
  return s.count list among (← (Filter.condition db list filter).settle)

/-- The number of rows that a filter selects. -/
def count (db : Database) (s : Store) (list : String) (filter : Value) : Except Fault Nat := do
  let _ ← db.table list
  db.tally s list (fun _ => true) filter

def plan (db : Database) (list field : String) : Except Fault RelationPlan :=
  match db.schema.plan? list field with
  | some p => .ok p
  | none => .error (.key .unknown)

/-- The linked rows that a search yields. -/
def findRelated (db : Database) (s : Store) (list field : String) (id : Int) (q : Search) :
    Except Fault (List Row) := do
  let plan ← db.plan list field
  db.search s plan.target (s.isReached plan id) q

/-- The number of linked rows that a filter selects. -/
def countRelated (db : Database) (s : Store) (list field : String) (id : Int) (filter : Value) :
    Except Fault Nat := do
  let plan ← db.plan list field
  db.tally s plan.target (s.isReached plan id) filter

end Database

end RecordSchema
