import RecordSchema.Fault
import RecordSchema.Text.Case
import RecordSchema.Value.Plain

/-!
# Searches

What a list query asks for: a filter, an ordering, a page and a cursor.
Arguments arrive raw and are checked once: an ordering entry names
exactly one field, a page is not negative, and a cursor needs an
ordering, since without one the position after it is undefined.
-/

namespace RecordSchema

/-- One key of an ordering. -/
structure SortKey where
  field : Value
  direction : Value

/-- A list query. -/
structure Search where
  filter : Value := .map []
  order : List SortKey := []
  take : Option Int := none
  skip : Int := 0
  cursor : Option Value := none

/-- The arguments of a list query as they arrive; `unset` when not sent. -/
structure SearchArgs where
  filter : Value := .null
  order : Value := .null
  take : Value := .null
  skip : Value := .int 0
  cursor : Value := .null

/-! ## Directions -/

def directionText (v : Value) : String :=
  let v := match v with
    | .member _ w => w
    | .host as => (as.lookup "value").getD v
    | v => v
  Text.strip (Text.lower v.display)

/-- The direction that a value spells, in any case and with blanks around it. -/
def readDirection (v : Value) : Except ValueFault String :=
  let s := directionText v
  if s == "asc" || s == "desc" then .ok s else .error (.direction s)

/-! ## Orderings -/

/-- The entries of an ordering, as plain values. -/
def orderEntries (v : Value) : Except Fault (List Value) :=
  if !v.isTruthy then .ok []
  else
    match v with
    | .list vs => .ok (vs.map Value.plain)
    | .tuple vs => .ok (vs.map Value.plain)
    | .map es => .ok (es.map fun e => e.1.plain)
    | .text s => .ok (s.toList.map fun c => .text c.toString)
    | _ => .error .wrongKind

def SortKey.ofEntry (v : Value) : Except Fault SortKey :=
  match v with
  | .map es =>
    match es.filter fun e => !e.2.isNull with
    | [(k, d)] =>
      match readDirection d with
      | .ok d => .ok ⟨k, .text d⟩
      | .error (.direction t) => .error (.query (.direction t))
      | .error e => .error (.value e)
    | _ =>
      match Value.sortKeys? (es.map Prod.fst) with
      | some keys => .error (.query (.orderEntry keys))
      | none => .error .wrongKind
  | _ => .error .wrongKind

/-- The sort key of an entry with one field, whose direction is taken as it is. -/
def SortKey.ofSole (es : Value.Entries) : Except Fault SortKey :=
  match es with
  | [(k, d)] => .ok ⟨k, d⟩
  | es => .error (.value (.notSole es.length))

/-! ## Pages -/

/-- The number that a page argument gives; none when it is null or not sent. -/
def pageNumber? : Value → Except Fault (Option Int)
  | .null => .ok none
  | .unset => .ok none
  | .int n => .ok (some n)
  | .bool b => .ok (some (Value.ofBool b))
  | _ => .error .wrongKind

namespace Search

/-- Checks the arguments of a list query. -/
def ofArgs (args : SearchArgs) : Except Fault Search := do
  let filter := match args.filter.plain with
    | .null => Value.map []
    | .unset => Value.map []
    | v => v
  let order ← (← orderEntries args.order).mapM SortKey.ofEntry
  let take ← pageNumber? args.take
  let skip := (← pageNumber? args.skip).getD 0
  if let some n := take then
    if n < 0 then throw (.query (.negativeTake n))
  if skip < 0 then throw (.query (.negativeSkip skip))
  let cursor := match args.cursor.plain with
    | .null => none
    | .unset => none
    | v => some v
  if cursor.isSome && order.isEmpty then throw (.unorderedCursor none)
  return { filter, order, take, skip, cursor }

end Search

end RecordSchema
