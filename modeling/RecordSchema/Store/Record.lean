import RecordSchema.Store.Expression
import RecordSchema.Store.Filter

/-!
# Records

A record is the mapping of the stored fields of a row: its id, a value
for every scalar and enum field, and a mapping of all subfields for
every composite. Writing a record assigns values to columns; reading
gives them back, with null for whatever was not assigned.

`insert` and `update` check what a table demands before they change it:
no null in a required column, and no value twice in a unique one.
-/

namespace RecordSchema

/-- A record: field keys and values. -/
abbrev Record := Value.Entries

namespace TableLayout

def column? (t : TableLayout) (name : String) : Option Column :=
  t.columns.find? fun c => c.name == name

/-! ## Reading -/

def readColumn (t : TableLayout) (r : Row) (name : String) : Value :=
  match t.column? name with
  | some c => c.type.read (r.cell name)
  | none => .null

def readField (t : TableLayout) (r : Row) : FieldColumns → Value
  | .one c => t.readColumn r c
  | .many subs => .map (subs.map fun (name, c) => (.text name, t.readColumn r c))

def record (t : TableLayout) (r : Row) : Record :=
  t.fields.map fun (key, place) => (.text key, t.readField r place)

def dump (t : TableLayout) (r : Row) : Record :=
  t.columns.map fun c => (.text c.name, c.type.read (r.cell c.name))

/-! ## Assigning -/

/-- The columns of the subfields that a value of a composite gives. -/
def assignSubfields (subs : List (String × String)) : Value.Entries → List (String × Value)
  | [] => []
  | (.text name, v) :: r =>
    match subs.lookup name with
    | some c => if v.isUnset then assignSubfields subs r else (c, v) :: assignSubfields subs r
    | none => assignSubfields subs r
  | _ :: r => assignSubfields subs r

def assignField (place : FieldColumns) (v : Value) : Except Fault (List (String × Value)) :=
  match place with
  | .one c => .ok [(c, v)]
  | .many subs =>
    match v with
    | .map es => .ok (assignSubfields subs es)
    | v => if v.isTruthy then .error .wrongKind else .ok []

/-- The columns that data give, in the order of the data; what was not sent and
what is no stored field gives none. -/
def assign (t : TableLayout) : Value.Entries → Except Fault (List (String × Value))
  | [] => .ok []
  | (.text key, v) :: r =>
    match t.fields.lookup key with
    | some place =>
      if v.isUnset then t.assign r
      else do
        let here ← assignField place v
        let rest ← t.assign r
        return here ++ rest
    | none => t.assign r
  | _ :: r => t.assign r

/-- The cells of assigned values, in the order of the columns; the last value
of a column counts. -/
def bindAll (given : List (String × Value)) : List Column → Reading (List (String × Cell))
  | [] => return []
  | c :: r =>
    match given.reverse.lookup c.name with
    | some v => do
      let cell ← Reading.operand (c.type.bind v)
      let rest ← bindAll given r
      return (c.name, cell) :: rest
    | none => bindAll given r

/-- The cells of assigned values. -/
def bind (t : TableLayout) (given : List (String × Value)) : Except Fault (List (String × Cell)) :=
  (bindAll given t.columns).settle

/-! ## Demands -/

/-- The first required column that a row leaves empty. -/
def missing? (t : TableLayout) (r : Row) : Option Column :=
  t.columns.find? fun c => !c.nullable && (r.cell c.name).isNull

/-- The first unique column, from the last one on, whose value another row has. -/
def repeated? (t : TableLayout) (others : List Row) (r : Row) : Option Column :=
  t.columns.reverse.find? fun c =>
    c.unique && !(r.cell c.name).isNull && others.any fun o => (o.cell c.name).same (r.cell c.name)

/-- Checks a row against the demands of its table and the other rows. -/
def check (t : TableLayout) (others : List Row) (r : Row) : Except Fault Unit :=
  match t.missing? r with
  | some c => .error (.constraint (.notNull t.list c.name))
  | none =>
    if others.any fun o => o.id == r.id then .error (.constraint (.unique t.list ["id"]))
    else
      match t.repeated? others r with
      | some c => .error (.constraint (.unique t.list [c.name]))
      | none => .ok ()

/-- The next number of a column that storage numbers: one more than the
largest, and one at first. -/
def nextNumber (rows : List Row) (column : String) : Int :=
  let numbers := rows.filterMap fun r => match r.cell column with
    | .int n => some n
    | _ => none
  match numbers with
  | [] => 1
  | n :: ns => ns.foldl max n + 1

/-- The numbers of the numbered columns that are not given. -/
def numbered (t : TableLayout) (rows : List Row) (given : List (String × Value)) :
    List (String × Value) :=
  (t.sequences.filter fun c => !given.any (·.1 == c)).map fun c => (c, .int (nextNumber rows c))

/-- The cells of the columns that are not given and have an expression. -/
def filled (t : TableLayout) (now : DateTime) (given : List (String × Cell)) : List (String × Cell) :=
  t.columns.filterMap fun c =>
    match c.expression with
    | some e => if given.any (·.1 == c.name) then none else some (c.name, Expression.cell c.type now e)
    | none => none

def givenId? (cells : List (String × Cell)) : Except Fault (Option Int) :=
  match cells.lookup "id" with
  | none => .ok none
  | some .null => .ok none
  | some (.int n) => .ok (some n)
  | some _ => .error (.constraint .datatype)

/-- The cells of the columns other than the id. -/
def withoutId (cells : List (String × Cell)) : List (String × Cell) :=
  cells.filter fun c => c.1 != "id"

end TableLayout

namespace Database

def table (db : Database) (list : String) : Except Fault TableLayout :=
  match db.layout.table? list with
  | some t => .ok t
  | none => .error (.key .unknown)

def record (db : Database) (list : String) (r : Row) : Record :=
  match db.layout.table? list with
  | some t => t.record r
  | none => []

/-- All columns of all rows of a table, by id. -/
def tableDump (_ : Database) (s : Store) (t : TableLayout) : List Record :=
  ((s.rows t.list).mergeSort fun a b => a.id ≤ b.id).map t.dump

def joinDump (_ : Database) (s : Store) (t : JoinTable) : List Record :=
  (s.pairs t.name).map fun p =>
    [(.text t.own.column, .int p.1), (.text t.own.other.column, .int p.2)]

/-- Adds a row with the given data. -/
def insert (db : Database) (s : Store) (now : DateTime) (list : String) (data : Value.Entries) :
    Except Fault (Row × Store) := do
  let t ← db.table list
  let given ← t.assign data
  let given := given ++ t.numbered (s.rows list) given
  let cells ← t.bind given
  let id := (← TableLayout.givenId? cells).getD (s.nextId list)
  let row : Row := { id, cells := TableLayout.withoutId cells ++ t.filled now cells }
  t.check (s.rows list) row
  return (row, s.setRows list (s.rows list ++ [row]))

/-- The row after giving it cells; an id must stay a number. -/
def changed (r : Row) (cells : List (String × Cell)) : Except Fault Row := do
  let r' := r.setAll (TableLayout.withoutId cells)
  match cells.lookup "id" with
  | none => return r'
  | some .null => throw (.constraint .datatype)
  | some _ => return { r' with id := (← TableLayout.givenId? cells).getD r.id }

/-- Changes the columns that data give in the row of an id, if there is one. -/
def update (db : Database) (s : Store) (list : String) (id : Int) (data : Value.Entries) :
    Except Fault Store := do
  let t ← db.table list
  let cells ← t.bind (← t.assign data)
  match s.row? list id with
  | none => return s
  | some r =>
    let r' ← changed r cells
    t.check ((s.rows list).filter fun o => o.id != id) r'
    return s.modifyRows list (fun o => o.id == id) fun _ => r'

end Database

end RecordSchema
