import RecordSchema.Relation.Plan
import RecordSchema.Store.Cell

/-!
# Stores

A store holds the rows of every list and the links of every join table.
A row has an id and cells by the names of their columns; a column that a
row says nothing about is null. Two views say what a store holds:
`rows list` and `pairs table`. Every write changes one of them and
leaves all others as they are.
-/

namespace RecordSchema

/-! ## Rows -/

/-- A row of the table of a list. -/
structure Row where
  id : Int
  cells : List (String × Cell)
deriving Inhabited

namespace Row

def cell (r : Row) (column : String) : Cell :=
  if column = "id" then .int r.id else (r.cells.lookup column).getD .null

def putCell (cells : List (String × Cell)) (column : String) (c : Cell) : List (String × Cell) :=
  match cells with
  | [] => [(column, c)]
  | (k, d) :: r => if k = column then (k, c) :: r else (k, d) :: putCell r column c

/-- Sets the cell of a column that is not the id. -/
def set (r : Row) (column : String) (c : Cell) : Row :=
  { r with cells := putCell r.cells column c }

def setAll (r : Row) (cells : List (String × Cell)) : Row :=
  cells.foldl (fun r (k, c) => r.set k c) r

end Row

/-! ## Stores -/

/-- Rows by list and links by join table; a link is a pair of ids, that of the
first column and that of the second. -/
structure Store where
  tables : List (String × List Row) := []
  joins : List (String × List (Int × Int)) := []
deriving Inhabited

namespace Store

def putEntry {α : Type} (entries : List (String × α)) (name : String) (a : α) : List (String × α) :=
  match entries with
  | [] => [(name, a)]
  | (k, b) :: r => if k = name then (k, a) :: r else (k, b) :: putEntry r name a

def rows (s : Store) (list : String) : List Row :=
  (s.tables.lookup list).getD []

/-- The links of a join table. -/
def pairs (s : Store) (table : String) : List (Int × Int) :=
  (s.joins.lookup table).getD []

def setRows (s : Store) (list : String) (rows : List Row) : Store :=
  { s with tables := putEntry s.tables list rows }

/-- Replaces the links of a join table. -/
def setPairs (s : Store) (table : String) (pairs : List (Int × Int)) : Store :=
  { s with joins := putEntry s.joins table pairs }

/-- Changes the rows of a list that satisfy a condition. -/
def modifyRows (s : Store) (list : String) (p : Row → Bool) (f : Row → Row) : Store :=
  s.setRows list ((s.rows list).map fun r => if p r then f r else r)

def row? (s : Store) (list : String) (id : Int) : Option Row :=
  (s.rows list).find? fun r => r.id == id

/-- The id of the next row: one more than the largest, and one at first. -/
def nextId (s : Store) (list : String) : Int :=
  match s.rows list with
  | [] => 1
  | r :: rs => rs.foldl (fun n r => max n (r.id + 1)) (r.id + 1)

/-! ## Links -/

/-- The links of a join table, seen from one side: own id and target's id. -/
def linksFrom (s : Store) (table : String) (side : JoinSide) : List (Int × Int) :=
  match side with
  | .first => s.pairs table
  | .second => (s.pairs table).map Prod.swap

/-- Whether a filter on a relation takes a row of the target for one that is
linked to `own`. A key column ties the two rows to each other; a join
table only tells whether the target is linked to any row of the list. -/
def isTied (s : Store) (plan : RelationPlan) (own target : Row) : Bool :=
  match plan.link with
  | .ownKey column _ => (own.cell column).isKey target.id
  | .targetKey column _ => (target.cell column).isKey own.id
  | .join table side =>
    (s.rows plan.list).any fun r => (s.linksFrom table side).contains (r.id, target.id)

/-! ## What a store says about its views -/

theorem lookup_cons_self {α : Type} (k : String) (a : α) (r : List (String × α)) :
    ((k, a) :: r).lookup k = some a :=
  List.lookup_cons_self

theorem lookup_cons_ne {α : Type} {k n : String} (h : k ≠ n) (a : α) (r : List (String × α)) :
    ((n, a) :: r).lookup k = r.lookup k := by
  rw [List.lookup_cons, beq_eq_false_iff_ne.2 h]

theorem lookup_putEntry {α : Type} (es : List (String × α)) (k n : String) (a : α) :
    (putEntry es n a).lookup k = if k = n then some a else es.lookup k := by
  induction es with
  | nil =>
    by_cases h : k = n
    · subst h
      rw [putEntry, lookup_cons_self, if_pos rfl]
    · rw [putEntry, lookup_cons_ne h, if_neg h]
  | cons e r ih =>
    obtain ⟨m, b⟩ := e
    by_cases hm : m = n
    · subst hm
      rw [putEntry, if_pos rfl]
      by_cases hk : k = m
      · subst hk
        rw [lookup_cons_self, if_pos rfl]
      · rw [lookup_cons_ne hk, lookup_cons_ne hk, if_neg hk]
    · rw [putEntry, if_neg hm]
      by_cases hk : k = m
      · subst hk
        rw [lookup_cons_self, lookup_cons_self, if_neg hm]
      · rw [lookup_cons_ne hk, lookup_cons_ne hk, ih]

@[simp] theorem rows_setRows (s : Store) (list other : String) (rs : List Row) :
    (s.setRows list rs).rows other = if other = list then rs else s.rows other := by
  simp only [rows, setRows, lookup_putEntry]
  split <;> rfl

@[simp] theorem pairs_setRows (s : Store) (list : String) (rs : List Row) (table : String) :
    (s.setRows list rs).pairs table = s.pairs table := rfl

@[simp] theorem rows_setPairs (s : Store) (table list : String) (ps : List (Int × Int)) :
    (s.setPairs table ps).rows list = s.rows list := rfl

@[simp] theorem pairs_setPairs (s : Store) (table other : String) (ps : List (Int × Int)) :
    (s.setPairs table ps).pairs other = if other = table then ps else s.pairs other := by
  simp only [pairs, setPairs, lookup_putEntry]
  split <;> rfl

end Store

end RecordSchema
