import RecordSchema.Relation.Input
import RecordSchema.Schema.Declaration
import RecordSchema.Store.Condition
import RecordSchema.Store.Layout

/-!
# Filters

A filter names fields and what it asks of each: operators with their
operands for a column, another filter for a relation to one, quantified
filters for a relation to many; `AND`, `OR` and `NOT` combine filters.
`Filter.condition` turns a filter into a condition on rows.

A filter with mistakes in its form is refused where the mistake stands.
Operands that a column cannot take are only found when the condition is
put to use, so those faults are collected and the condition is refused
at the end.
-/

namespace RecordSchema

/-- The operators of filters on a column. -/
inductive FilterOperator where
  | equals
  | lt
  | lte
  | gt
  | gte
  | among
  | notAmong
  | contains
  | startsWith
  | endsWith
deriving DecidableEq

instance : Spelled FilterOperator where
  all := [.equals, .lt, .lte, .gt, .gte, .among, .notAmong, .contains, .startsWith, .endsWith]
  spelling
    | .equals => "equals"
    | .lt => "lt"
    | .lte => "lte"
    | .gt => "gt"
    | .gte => "gte"
    | .among => "in"
    | .notAmong => "notIn"
    | .contains => "contains"
    | .startsWith => "startsWith"
    | .endsWith => "endsWith"

def FilterOperator.read (v : Value) : Except Fault FilterOperator :=
  match v with
  | .text s =>
    match Spelled.ofText? s with
    | some o => .ok o
    | none => .error (.value (.operator v))
  | _ => .error (.value (.operator v))

/-- Reading a filter collects the faults of its operands. -/
abbrev Reading (α : Type) := StateT (List Fault) (Except Fault) α

namespace Reading

/-- The operand of a comparison; a fault is collected and null stands in. -/
def operand (c : Except Fault Cell) : Reading Cell := do
  match c with
  | .ok c => return c
  | .error f =>
    modify (· ++ [f])
    return .null

/-- Whether the fault is found before the request reaches storage. -/
def isEarly : Fault → Bool
  | .statement => true
  | _ => false

/-- Ends a reading: the faults that are found before the request reaches
storage come first. -/
def settle {α : Type} (r : Reading α) : Except Fault α := do
  let (a, faults) ← r.run []
  match faults.find? isEarly, faults with
  | some f, _ => throw f
  | none, f :: _ => throw f
  | none, [] => return a

end Reading

namespace Filter

/-! ## Filters on a column -/

/-- The column that a filter is about. -/
structure Target where
  column : String
  type : ColumnType
  /-- Whether the field holds texts, so that case may be ignored. -/
  textual : Bool

/-- The cell of a comparison that ignores case: any kind will do. -/
def foldedOperand (v : Value) : Except Fault Cell :=
  (match v with
    | .decimal _ => Cell.binary v
    | .dateTime t => .ok (.time t.naive)
    | v => Cell.ofValue v).map Cell.fold

/-- Places a needle with the escapes that it takes in a pattern. -/
def escapedNeedle (s : String) : String :=
  String.ofList (s.toList.flatMap fun c => if c == '%' || c == '_' || c == '/' then ['/', c] else [c])

/-- A test that looks for a text. A column of an enumeration takes only its
own values, escapes included. -/
def needleTest (t : Target) (p : Placement) (v : Value) : Reading Test := do
  match v with
  | .text s =>
    match t.type with
    | .enum .. => do
      let _ ← Reading.operand (t.type.bind (.text (escapedNeedle s)))
      return .holds p s
    | _ => return .holds p s
  | _ => throw .wrongKind

/-- A test that orders; nothing and truth values have no order. -/
def orderTest (t : Target) (c : Comparison) (v : Value) : Reading Test := do
  match v with
  | .null => throw .comparison
  | .bool _ => throw .comparison
  | v => return .compare c (← Reading.operand (t.type.operand v))

def memberOperand (t : Target) (v : Value) : Reading Cell :=
  if v.isNull then return .null else Reading.operand (t.type.operand v)

def equalsTest (t : Target) (insensitive : Bool) (v : Value) : Reading Test := do
  if v.isNull then return .isNull
  else if insensitive then return .folded (.compare .eq (← Reading.operand (foldedOperand v)))
  else return .compare .eq (← Reading.operand (t.type.operand v))

/-- A test for membership; without regard to case the operands are taken by
their texts in lower case. -/
def amongTest (t : Target) (insensitive : Bool) (v : Value) : Reading Test := do
  let vs ← liftM (ManyPlan.membersOf v)
  if insensitive then
    return .folded (.among (vs.map fun v => .text (Text.lower v.display)))
  else return .among (← vs.mapM (memberOperand t))

def operatorCondition (t : Target) (insensitive : Bool) (o : FilterOperator) (v : Value) :
    Reading Condition := do
  let here (test : Test) : Condition := .cell t.column test
  match o with
  | .equals => return here (← equalsTest t insensitive v)
  | .among => return here (← amongTest t insensitive v)
  | .notAmong => return .not (here (← amongTest t insensitive v))
  | .lt => return here (← orderTest t .lt v)
  | .lte => return here (← orderTest t .le v)
  | .gt => return here (← orderTest t .gt v)
  | .gte => return here (← orderTest t .ge v)
  | .contains => return here (← needleTest t .anywhere v)
  | .startsWith => return here (← needleTest t .atStart v)
  | .endsWith => return here (← needleTest t .atEnd v)

/-- The keys of a column filter that are no operators. -/
def isModifier (key : Value) : Bool :=
  key.isText "mode" || key.isText "not"

def operatorConditions (t : Target) (insensitive : Bool) : Value.Entries → Reading (List Condition)
  | [] => return []
  | (k, v) :: r => do
    if isModifier k then operatorConditions t insensitive r
    else
      let o ← liftM (FilterOperator.read k)
      let c ← operatorCondition t insensitive o v
      return c :: (← operatorConditions t insensitive r)

/-- Whether a column filter ignores case; `inherited` is what the filter around
it does, for one that names no mode. -/
def ignoresCase (t : Target) (inherited : Bool) (es : Value.Entries) : Bool :=
  t.textual && if es.has "mode" then (es.get "mode").isText "insensitive" else inherited

mutual

/-- The condition of a column filter. -/
def cellCondition (t : Target) (inherited : Bool) : Value → Reading Condition
  | .null => return .cell t.column .isNull
  | .map es => do
    let insensitive := ignoresCase t inherited es
    let own ← operatorConditions t insensitive es
    let negated ← negatedConditions t insensitive es
    return .all (own ++ negated)
  | _ => throw .wrongKind

/-- The conditions of the negated part of a column filter. -/
def negatedConditions (t : Target) (insensitive : Bool) : List (Value × Value) → Reading (List Condition)
  | [] => return []
  | (k, v) :: r => do
    if k.isText "not" then
      let c ← cellCondition t insensitive v
      return .not c :: (← negatedConditions t insensitive r)
    else negatedConditions t insensitive r

end

/-! ## Filters on a list -/

def isTextual : Storage → Bool
  | .enum _ => true
  | .scalar f => f.scalar == .text
  | _ => false

/-- What the filter of a field is about. -/
inductive Subject where
  | column (t : Target)
  /-- The records that a relation links to. -/
  | relation (plan : RelationPlan)

/-- What the filter of a field is about; the field must be one of the list. -/
def subjectOf (db : Database) (list key : String) : Except Fault Subject := do
  match db.schema.field? list key with
  | none => throw (.key .unknown)
  | some f =>
    match f.storage with
    | .relation _ =>
      match db.schema.plan? list key with
      | some plan => return .relation plan
      | none => throw (.key .unknown)
    | s =>
      let column ← db.layout.column list key
      let type := (db.layout.columnType? list column).getD .string
      return .column { column, type, textual := isTextual s }

def quantified (plan : RelationPlan) (q : Quantifier) (c : Condition) : Condition :=
  match q with
  | .some => .related plan c
  | .none => .not (.related plan c)
  | .every => .not (.related plan (.not c))

/-- The key of a field; a key that is no text names none. -/
def fieldKey (k : Value) : Except Fault String :=
  match k with
  | .text s => .ok s
  | _ => .error (.key .unknown)

def combine (key : String) (cs : List Condition) : Condition :=
  if key == "AND" then .all cs else if key == "OR" then .any cs else .not (.any cs)

mutual

def ofValue (db : Database) (list : String) : Value → Reading Condition
  | .map es => do return .all (← ofEntries db list es)
  | v => if v.isTruthy then throw .wrongKind else return .all []

def ofEntries (db : Database) (list : String) : List (Value × Value) → Reading (List Condition)
  | [] => return []
  | (k, v) :: r => do
    let key ← liftM (fieldKey k)
    let c ←
      if logicalKeys.contains key then do
        let cs ← ofMembers db list v
        pure (combine key cs)
      else do
        let subject ← liftM (subjectOf db list key)
        match subject with
        | .column t => cellCondition t false v
        | .relation plan =>
          match plan.mode with
          | .one =>
            if v.isNull then pure (.not (.related plan (.all [])))
            else do
              let inner ← ofValue db plan.target v
              pure (.related plan inner)
          | .many => do
            let cs ← ofQuantified db plan v
            pure (.all cs)
    let cs ← ofEntries db list r
    return c :: cs

/-- The conditions of the filters under a logical key. -/
def ofMembers (db : Database) (list : String) : Value → Reading (List Condition)
  | .list vs => ofAll db list vs
  | .tuple vs => ofAll db list vs
  | .map [] => return []
  | .text "" => return []
  | _ => throw .wrongKind

/-- The conditions of several filters. -/
def ofAll (db : Database) (list : String) : List Value → Reading (List Condition)
  | [] => return []
  | v :: r => do
    let c ← ofValue db list v
    let cs ← ofAll db list r
    return c :: cs

/-- The conditions of the filter of a relation to many. -/
def ofQuantified (db : Database) (plan : RelationPlan) : Value → Reading (List Condition)
  | .map es => ofQuantifiers db plan es
  | v => if v.isTruthy then throw .wrongKind else return []

/-- The conditions of quantified filters. -/
def ofQuantifiers (db : Database) (plan : RelationPlan) :
    List (Value × Value) → Reading (List Condition)
  | [] => return []
  | (k, v) :: r => do
    let c ← ofValue db plan.target v
    let q ← liftM (Quantifier.read k)
    let cs ← ofQuantifiers db plan r
    return quantified plan q c :: cs

end

/-- The condition of a filter, whose operands may still be at fault. -/
def condition (db : Database) (list : String) (filter : Value) : Reading Condition :=
  ofValue db list filter

end Filter

end RecordSchema
