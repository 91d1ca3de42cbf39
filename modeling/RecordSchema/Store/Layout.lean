import RecordSchema.Schema
import RecordSchema.Store.Column

/-!
# Layouts

The tables of a schema: one table per list with an id, a column for
every scalar or enum field, a column for every subfield of a composite
field, and the key columns of the relations that the list owns; and one
join table with two key columns for every relation between many and
many. No two columns of a table and no two tables have the same name.
-/

namespace RecordSchema

/-- Where a field is kept. -/
inductive FieldColumns where
  | one (column : String)
  /-- A column for every subfield. -/
  | many (subfields : List (String × String))
deriving DecidableEq

def FieldColumns.names : FieldColumns → List String
  | .one c => [c]
  | .many subs => subs.map Prod.snd

/-- The table of a list. -/
structure TableLayout where
  list : String
  columns : List Column
  /-- Where every stored field is kept; the id comes first. -/
  fields : List (String × FieldColumns)
  /-- The columns that storage numbers, the id apart. -/
  sequences : List String

/-- A table of links; `own` is the column of the list that comes first. -/
structure JoinTable where
  name : String
  own : JoinSide
  list : String
  target : String

/-- The columns of a join table, in order. -/
def JoinTable.columns (t : JoinTable) : List Column :=
  [.joinKey t.own.column t.list, .joinKey t.own.other.column t.target]

/-- The tables of a schema. -/
structure Layout where
  tables : List TableLayout
  joins : List JoinTable

namespace Layout

def table? (l : Layout) (list : String) : Option TableLayout :=
  l.tables.find? fun t => t.list == list

/-! ## Columns of fields -/

/-- What a field adds to the table of its list. -/
structure FieldPart where
  columns : List Column
  place : FieldColumns
  sequences : List String

def subfieldColumn (field name : String) (s : Storage) : String :=
  (nonempty? s.map?).getD (field ++ "_" ++ name)

/-- The column of a subfield; it may always be left empty. -/
def subfieldPart? (field name : String) (s : Storage) : Option Column :=
  (Column.ofStorage? (subfieldColumn field name s) s).map fun c => { c with nullable := true }

/-- What a field adds to the table; nothing for relations and computed fields. -/
def partOf? (key : String) (s : Storage) : Option FieldPart :=
  match s with
  | .multi subs =>
    some {
      columns := subs.filterMap fun (name, s) => subfieldPart? key name s
      place := .many (subs.map fun (name, s) => (name, subfieldColumn key name s))
      sequences := subs.filterMap fun (name, s) =>
        if s.isNumbered then some (subfieldColumn key name s) else none }
  | s =>
    let name := (nonempty? s.map?).getD key
    (Column.ofStorage? name s).map fun c => {
      columns := [c]
      place := .one name
      sequences := if s.isNumbered then [name] else [] }

/-- What the fields of a list add to its table, the id apart. -/
def parts (l : ListType) : List (String × FieldPart) :=
  l.fields.filterMap fun (key, f) =>
    if key == "id" then none else (partOf? key f.storage).map (key, ·)

/-- The key columns that the relations of a list own. -/
def keyColumns (plans : List RelationPlan) (list : String) : List Column :=
  plans.filterMap fun p =>
    match p.link with
    | .ownKey column unique => if p.list == list then some (.key column p.target unique) else none
    | _ => none

def tableOf (plans : List RelationPlan) (l : ListType) : TableLayout :=
  let ps := parts l
  { list := l.key
    columns := .id :: ps.flatMap (fun p => p.2.columns) ++ keyColumns plans l.key
    fields := ("id", .one "id") :: ps.map fun p => (p.1, p.2.place)
    sequences := ps.flatMap fun p => p.2.sequences }

/-- Keeps the first join table of every name. -/
def distinctJoins : List JoinTable → List JoinTable
  | [] => []
  | t :: r => t :: (distinctJoins r).filter fun u => u.name != t.name

/-- The join tables of a schema. -/
def joinsOf (plans : List RelationPlan) : List JoinTable :=
  distinctJoins <| plans.filterMap fun p =>
    match p.link with
    | .join name side => some ⟨name, side, p.list, p.target⟩
    | _ => none

/-! ## Clashes -/

/-- Whether two columns of a table have the same name. -/
def hasClash (t : TableLayout) : Bool :=
  !(t.columns.map (·.name)).Nodup

/-- Whether an expression that storage fills in is no text. -/
def hasOddExpression (l : ListType) : Bool :=
  let isOdd (s : Storage) : Bool := match s.default? with
    | some (.policy (.dbGenerated (.text _))) => false
    | some (.policy (.dbGenerated _)) => true
    | _ => false
  l.fields.any fun (_, f) =>
    match f.storage with
    | .multi subs => subs.any fun p => isOdd p.2
    | s => isOdd s

def checkTables (plans : List RelationPlan) : List ListType → Except Fault (List TableLayout)
  | [] => .ok []
  | l :: r =>
    let t := tableOf plans l
    if hasOddExpression l then .error .wrongKind
    else if hasClash t then .error .duplicateColumn
    else (checkTables plans r).map (t :: ·)

def ofSchema (s : Schema) : Except Fault Layout := do
  let tables ← checkTables s.plans s.lists
  let joins := joinsOf s.plans
  if joins.any fun j => tables.any fun t => t.list == j.name then throw .duplicateTable
  return { tables, joins }

/-- The column of a field that is kept in one column. -/
def column (l : Layout) (list field : String) : Except Fault String :=
  match (l.table? list).bind fun t => t.fields.lookup field with
  | some (.one c) => .ok c
  | some (.many _) => .error (.key (.severalColumns list field))
  | none => .error (.key .unknown)

def columnType? (l : Layout) (list column : String) : Option ColumnType :=
  ((l.table? list).bind fun t => t.columns.find? fun c => c.name == column).map (·.type)

end Layout

/-- A schema and the layout of its tables, at a host that follows so many levels
of input nested in other input. -/
structure Database where
  schema : Schema
  layout : Layout
  nesting : Nat := 199

/-- How deeply input is followed; a level that is not nested always is. -/
def Database.depth (db : Database) : Nat :=
  db.nesting + 1

def Database.ofSchema (s : Schema) : Except Fault Database :=
  (Layout.ofSchema s).map fun layout => { schema := s, layout }

end RecordSchema
