import RecordSchema.Fault
import RecordSchema.Json.Writer
import RecordSchema.Store.Column

/-!
# Cells

What one column of one row holds. Cells have an order: nothing comes
before numbers and numbers before texts; numbers are compared by value
and texts by code points. A date is kept as the text of its time of day
and compared as such, and a JSON value that is no number is compared by
its text.

A column takes the values of its type (`ColumnType.bind`) and gives them
back (`ColumnType.read`): dates lose their offset, exact numbers go
through binary ones and come back with the places of the column.
-/

namespace RecordSchema

/-- What a column of a row holds. -/
inductive Cell where
  | null
  | int (n : Int)
  /-- A number of the binary format, never a NaN and never minus zero. -/
  | real (x : Binary64)
  | text (s : String)
  /-- A date without offset. -/
  | time (t : DateTime)
  /-- A JSON value that is no number. -/
  | json (v : Value)
deriving Inhabited

namespace Cell

/-- Whether the cell holds nothing. -/
def isNull : Cell → Bool
  | .null => true
  | _ => false

def isKey (c : Cell) (id : Int) : Bool :=
  match c with
  | .int n => n == id
  | _ => false

def ofBinary : Binary64 → Cell
  | .nan => .null
  | .finite _ 0 _ => .real .zero
  | x => .real x

/-- The cell of a truth value. -/
def ofBool (b : Bool) : Cell :=
  .int (Value.ofBool b)

/-- The text of a cell that is not null. -/
def shown : Cell → String
  | .null => ""
  | .int n => Digits.signed n
  | .real x => x.renderStored
  | .text s => s
  | .time t => t.stored
  | .json v => Json.write v

/-! ## Order -/

/-- The place of the kind of a cell in the order. -/
def rank : Cell → Nat
  | .null => 0
  | .int _ => 1
  | .real _ => 1
  | _ => 2

def compareNumbers : Cell → Cell → Ordering
  | .int a, .int b => compare a b
  | .int a, .real y => ((y.compareInt? a).getD .eq).swap
  | .real x, .int b => (x.compareInt? b).getD .eq
  | .real x, .real y => (x.compare? y).getD .eq
  | _, _ => .eq

def order (a b : Cell) : Ordering :=
  (compare a.rank b.rank).then <|
    match a.rank with
    | 0 => .eq
    | 1 => compareNumbers a b
    | _ => compare a.shown b.shown

def same (a b : Cell) : Bool :=
  a.order b == .eq

/-! ## Folding case -/

/-- A text with its ASCII letters in lower case. -/
def foldText (s : String) : String :=
  String.ofList (s.toList.map Char.toLower)

/-- The text of a cell with its ASCII letters in lower case. -/
def fold : Cell → Cell
  | .null => .null
  | c => .text (foldText c.shown)

end Cell

/-! ## Taking values -/

def fitsWord (n : Int) : Bool :=
  -0x8000000000000000 ≤ n && n < 0x8000000000000000

/-- The cell of a value regardless of the type of the column. -/
def Cell.ofValue : Value → Except Fault Cell
  | .null => .ok .null
  | .bool b => .ok (.ofBool b)
  | .int n => if fitsWord n then .ok (.int n) else .error .overflow
  | .float x => .ok (.ofBinary x)
  | .text s => .ok (.text s)
  | .dateTime t => .ok (.text (t.renderWith " "))
  | _ => .error .binding

def Cell.binaryOf? : Value → Option Binary64
  | .bool b => Binary64.ofInt? (Value.ofBool b)
  | .int n => Binary64.ofInt? n
  | .float x => some x
  | .decimal d => d.toBinary?
  | .text s => (Decimal.read? s).bind Decimal.toBinary?
  | _ => none

def Cell.binary (v : Value) : Except Fault Cell :=
  match v with
  | .null => .ok .null
  | v =>
    match Cell.binaryOf? v with
    | some x => .ok (.ofBinary x)
    | none => .error .statement

/-- The cell of a JSON value; a number is kept as a number. -/
def Cell.ofJson : Value → Cell
  | .int n => if fitsWord n then .int n else .ofBinary (Binary64.roundRatio (n < 0) n.natAbs 1)
  | .float (.finite s m e) =>
    match (Binary64.finite s m e).toInt? with
    | some n => if fitsWord n then .int n else .real (.finite s m e)
    | none => .real (.finite s m e)
  | v => .json v

namespace ColumnType

def isTextual : ColumnType → Bool
  | .string => true
  | .text => true
  | .enum .. => true
  | _ => false

/-- A cell as the column would hold it: a column of texts turns numbers into
texts, any other column turns numerals into numbers and, unless it is one
of binary numbers, whole numbers into integers. -/
def settle (t : ColumnType) (c : Cell) : Cell :=
  if t.isTextual then
    match c with
    | .int _ => .text c.shown
    | .real _ => .text c.shown
    | c => c
  else
    let number : Cell := match c with
      | .text s =>
        match (Decimal.read? s).bind Decimal.toBinary? with
        | some (.finite n m e) => .ofBinary (.finite n m e)
        | _ => c
      | c => c
    match t, number with
    | .float, .int n => .ofBinary (Binary64.roundRatio (n < 0) n.natAbs 1)
    | .float, c => c
    | _, .real x =>
      match x.toInt? with
      | some n => if fitsWord n then .int n else number
      | none => number
    | _, c => c

def bind (t : ColumnType) (v : Value) : Except Fault Cell :=
  match t with
  | .string | .text | .integer | .bigInteger => (Cell.ofValue v).map t.settle
  | .boolean =>
    if v.isNull then .ok .null
    else if v.same (.bool true) then .ok (.int 1)
    else if v.same (.bool false) then .ok (.int 0)
    else .error .statement
  | .float | .numeric _ => (Cell.binary v).map t.settle
  | .dateTime =>
    match v with
    | .null => .ok .null
    | .dateTime d => .ok (.time d.naive)
    | _ => .error .statement
  | .json =>
    match v.normal? with
    | some w => .ok (.ofJson w)
    | none => .error .statement
  | .enum _ values _ =>
    match v with
    | .null => .ok .null
    | .text s => if values.contains s then .ok (.text s) else .error .statement
    | _ => .error .statement

/-- The cell of a value that a column is compared with. Its kind decides more
than the type of the column does: only texts have to belong to an
enumeration. -/
def operand (t : ColumnType) (v : Value) : Except Fault Cell :=
  match t, v with
  | .enum .., .text _ => t.bind v
  | _, .text s => .ok (t.settle (.text s))
  | _, .bool b => .ok (t.settle (.ofBool b))
  | _, .int n => (Cell.ofValue (.int n)).map t.settle
  | _, .float x => .ok (t.settle (.ofBinary x))
  | _, .decimal d => (Cell.binary (.decimal d)).map t.settle
  | _, .dateTime d => .ok (.time d.naive)
  | t, v => t.bind v

/-! ## Giving values back -/

/-- Places behind the point of an exact number in a column without a scale. -/
def defaultScale : Nat := 10

/-- The exact number that a cell shows with `places` places. -/
def exact (places : Nat) : Cell → Value
  | .int n => .decimal (.finite (n < 0) (n.natAbs * Nat.pow 10 places) (-(places : Int)))
  | .real x => .decimal (.ofBinary places x)
  | .text s => .text s
  | _ => .null

def read (t : ColumnType) (c : Cell) : Value :=
  match t, c with
  | _, .null => .null
  | .boolean, .int n => .bool (n != 0)
  | .numeric p, c => exact ((p.map Prod.snd).getD defaultScale) c
  | _, .int n => .int n
  | _, .real x => .float x
  | _, .text s => .text s
  | _, .time d => .dateTime d
  | _, .json v => v

end ColumnType

end RecordSchema
