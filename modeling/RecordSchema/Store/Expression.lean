import RecordSchema.Store.Cell

/-!
# Default expressions

The expressions that storage fills in for a column without a value:
numerals, quoted texts, truth values, nothing, and the current time.
-/

namespace RecordSchema.Expression

/-- What an expression stands for before it is put into a column. -/
inductive Constant where
  | null
  | number (d : Decimal)
  | text (s : String)
  /-- The current date and time of day, to the second. -/
  | now
  /-- The current date. -/
  | today
  /-- The current time of day. -/
  | clock

/-- Takes one pair of brackets off. -/
def unbracket (cs : List Char) : List Char :=
  match cs with
  | '(' :: r => if r.getLast? = some ')' then r.dropLast else cs
  | _ => cs

/-- The text within quotes `q`, where two quotes stand for one. -/
def quoted? (q : Char) : List Char → Option (List Char)
  | [] => none
  | [c] => if c = q then some [] else none
  | c :: d :: r =>
    if c = q then
      if d = q then (quoted? q r).map (q :: ·) else none
    else (quoted? q (d :: r)).map (c :: ·)

def word? (s : String) : Option Constant :=
  match s with
  | "null" => some .null
  | "true" => some (.number (.finite false 1 0))
  | "false" => some (.number (.finite false 0 0))
  | "current_timestamp" => some .now
  | "current_date" => some .today
  | "current_time" => some .clock
  | _ => none

def numeral? (s : String) : Option Constant :=
  match Decimal.read? s with
  | some (.finite n c e) => some (.number (.finite n c e))
  | _ => none

/-- The constant that an expression stands for, null for any other expression. -/
def read (expression : String) : Constant :=
  let cs := (Text.strip (String.ofList (unbracket (Text.strip expression).toList))).toList
  let constant? : Option Constant := match cs with
    | '\'' :: r => (quoted? '\'' r).map fun t => .text (String.ofList t)
    | '"' :: r => (quoted? '"' r).map fun t => .text (String.ofList t)
    | cs => (word? (String.ofList (cs.map Char.toLower))).or (numeral? (String.ofList cs))
  constant?.getD .null

def numberCell (d : Decimal) : Cell :=
  match d with
  | .finite s c 0 => if fitsWord c then .int (if s then -(c : Int) else c) else .ofBinary (.ofScaled s c 0)
  | d => ((d.toBinary?).map Cell.ofBinary).getD .null

/-- The cell of a text in a column of dates or of JSON values. -/
def textCell (type : ColumnType) (s : String) : Cell :=
  match type with
  | .dateTime =>
    match Iso.read s with
    | .ok t => .time t.naive
    | .error _ => .text s
  | .json =>
    match Json.read s with
    | .ok v => .ofJson v
    | .error _ => .text s
  | _ => .text s

/-- The cell that an expression gives a column at a point in time. -/
def cell (type : ColumnType) (now : DateTime) (expression : String) : Cell :=
  type.settle <|
    match read expression with
    | .null => .null
    | .number d => numberCell d
    | .text s => textCell type s
    | .now => textCell type (now.renderDate ++ " " ++ now.renderClock)
    | .today => textCell type now.renderDate
    | .clock => textCell type now.renderClock

end RecordSchema.Expression
