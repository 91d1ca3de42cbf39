import RecordSchema.Value

/-!
# Reading JSON

Reads JSON text into a value. Beside the standard the words `NaN`,
`Infinity` and `-Infinity` are numbers; the last of several entries of
one key wins. A fault names what was expected and where: offset, line
and column.
-/

namespace RecordSchema.Json

/-- What went wrong. -/
inductive Problem where
  | expectedValue
  | expectedKey
  | expectedColon
  | expectedComma
  | unterminatedString
  | invalidEscape
  | invalidUnicodeEscape
  | invalidControl
  | extraData
  | byteOrderMark
  /-- More arrays and objects within each other than there is room for. -/
  | tooDeep
deriving DecidableEq

def Problem.message : Problem → String
  | .expectedValue => "Expecting value"
  | .expectedKey => "Expecting property name enclosed in double quotes"
  | .expectedColon => "Expecting ':' delimiter"
  | .expectedComma => "Expecting ',' delimiter"
  | .unterminatedString => "Unterminated string starting at"
  | .invalidEscape => "Invalid \\escape"
  | .invalidUnicodeEscape => "Invalid \\uXXXX escape"
  | .invalidControl => "Invalid control character at"
  | .extraData => "Extra data"
  | .byteOrderMark => "Unexpected UTF-8 BOM (decode using utf-8-sig)"
  | .tooDeep => "maximum recursion depth exceeded"

/-- A problem and the offset of the character it is about. -/
structure Fault where
  problem : Problem
  offset : Nat
deriving DecidableEq

/-- The wording of a fault in `text`: lines and columns count from one. -/
def Fault.message (f : Fault) (text : String) : String :=
  let before := text.toList.take f.offset
  let line := before.countP (· == '\n') + 1
  let column := (before.reverse.takeWhile (· != '\n')).length + 1
  f.problem.message ++ ": line " ++ Digits.decimal line ++ " column " ++ Digits.decimal column
    ++ " (char " ++ Digits.decimal f.offset ++ ")"

/-- The rest of the text with the offset of its first character. -/
structure Cursor where
  rest : List Char
  offset : Nat

/-- Moves over `n` characters. -/
def Cursor.skip (c : Cursor) (n : Nat) : Cursor :=
  ⟨c.rest.drop n, c.offset + n⟩

/-- A blank of the JSON grammar. -/
def isBlank (c : Char) : Bool :=
  c == ' ' || c == '\t' || c == '\n' || c == '\r'

/-- Moves over blanks. -/
def Cursor.skipBlanks (c : Cursor) : Cursor :=
  c.skip (c.rest.takeWhile isBlank).length

/-! ## Strings -/

/-- The character of a one-letter escape. -/
def simpleEscape? : Char → Option Char
  | '"' => some '"'
  | '\\' => some '\\'
  | '/' => some '/'
  | 'b' => some '\x08'
  | 'f' => some '\x0c'
  | 'n' => some '\n'
  | 'r' => some '\r'
  | 't' => some '\t'
  | _ => none

/-- The value of a hexadecimal digit. -/
def hexValue? (c : Char) : Option Nat :=
  if c.isDigit then some (c.toNat - 48)
  else if 'a' ≤ c ∧ c ≤ 'f' then some (c.toNat - 87)
  else if 'A' ≤ c ∧ c ≤ 'F' then some (c.toNat - 55)
  else none

/-- Four hexadecimal digits that do not end the text. -/
def hex4? : List Char → Option Nat
  | a :: b :: c :: d :: _ :: _ => ([a, b, c, d].mapM hexValue?).map (Digits.value 16)
  | _ => none

def surrogatePair (hi lo : Nat) : Nat :=
  0x10000 + (hi - 0xD800) * 0x400 + (lo - 0xDC00)

/-- Reads the code point behind `\u` and the count of characters it takes: a
high surrogate joins the low one that follows. -/
def unicodeEscape? (cs : List Char) : Option (Nat × Nat) := do
  let n ← hex4? cs
  if 0xD800 ≤ n ∧ n < 0xDC00 then
    match cs.drop 4 with
    | '\\' :: 'u' :: r =>
      match hex4? r with
      | some m => if 0xDC00 ≤ m ∧ m < 0xE000 then some (surrogatePair n m, 10) else some (n, 4)
      | none => some (n, 4)
    | _ => some (n, 4)
  else some (n, 4)

/-- Reads the characters of a string up to its closing quote; `start` is the
offset of the opening one. -/
def readString (start : Nat) (acc : List Char) (c : Cursor) : (fuel : Nat) → Except Fault (String × Cursor)
  | 0 => .error ⟨.unterminatedString, start⟩
  | fuel + 1 =>
    match c.rest with
    | [] => .error ⟨.unterminatedString, start⟩
    | '"' :: _ => .ok (String.ofList acc.reverse, c.skip 1)
    | '\\' :: 'u' :: r =>
      match unicodeEscape? r with
      | some (n, used) => readString start (Char.ofNat n :: acc) (c.skip (2 + used)) fuel
      | none => .error ⟨.invalidUnicodeEscape, c.offset + 1⟩
    | '\\' :: e :: _ =>
      match simpleEscape? e with
      | some ch => readString start (ch :: acc) (c.skip 2) fuel
      | none => .error ⟨.invalidEscape, c.offset⟩
    | ['\\'] => .error ⟨.unterminatedString, start⟩
    | ch :: _ =>
      if ch.toNat < 32 then .error ⟨.invalidControl, c.offset⟩
      else readString start (ch :: acc) (c.skip 1) fuel

/-! ## Numbers -/

/-- Splits a numeral off the front: digits without a leading zero, then a
fraction, then an exponent. Answers whether it is an integer. -/
def numeral? (cs : List Char) : Option (Value × Nat) :=
  let (s, digits) := match cs with
    | '-' :: r => (true, r)
    | r => (false, r)
  let whole := match digits with
    | '0' :: _ => ['0']
    | r => r.takeWhile Char.isDigit
  if whole.isEmpty then none
  else
    let after := digits.drop whole.length
    let fraction := match after with
      | '.' :: r => r.takeWhile Char.isDigit
      | _ => []
    let after := if fraction.isEmpty then after else after.drop (fraction.length + 1)
    let exponent := match after with
      | e :: r =>
        if e == 'e' || e == 'E' then
          let (sign, ds) := match r with
            | '+' :: q => (['+'], q)
            | '-' :: q => (['-'], q)
            | q => ([], q)
          let ds := ds.takeWhile Char.isDigit
          if ds.isEmpty then [] else e :: sign ++ ds
        else []
      | [] => []
    let used := (if s then 1 else 0) + whole.length
      + (if fraction.isEmpty then 0 else fraction.length + 1) + exponent.length
    if fraction.isEmpty && exponent.isEmpty then
      let n : Int := Decimal.number whole
      some (.int (if s then -n else n), used)
    else
      let ex := (Decimal.readExponent? exponent).getD 0
      some (.float (.ofScaled s (Decimal.number (whole ++ fraction)) (ex - fraction.length)), used)

/-- The words that stand for values. -/
def words : List (String × Value) := [
  ("null", .null), ("true", .bool true), ("false", .bool false), ("NaN", .float .nan),
  ("Infinity", .float (.infinity false)), ("-Infinity", .float (.infinity true))]

/-- Reads a word or a number. -/
def readAtom (c : Cursor) : Except Fault (Value × Cursor) :=
  match words.find? fun w => w.1.toList.isPrefixOf c.rest with
  | some (w, v) => .ok (v, c.skip w.length)
  | none =>
    match numeral? c.rest with
    | some (v, used) => .ok (v, c.skip used)
    | none => .error ⟨.expectedValue, c.offset⟩

/-! ## Values -/

/-- How many arrays and objects may stand within each other: of a thousand calls
that the host's stack takes, these are left when the reader is called. -/
def maxDepth : Nat := 991

mutual

/-- Reads a value with room for `room` arrays and objects within each other. -/
def readValue (room : Nat) (c : Cursor) : (fuel : Nat) → Except Fault (Value × Cursor)
  | 0 => .error ⟨.expectedValue, c.offset⟩
  | fuel + 1 =>
    match c.rest with
    | '"' :: _ => do
      let (s, c) ← readString c.offset [] (c.skip 1) c.rest.length
      return (.text s, c)
    | '[' :: _ =>
      match room with
      | 0 => .error ⟨.tooDeep, c.offset⟩
      | room + 1 =>
        let c := (c.skip 1).skipBlanks
        match c.rest with
        | ']' :: _ => .ok (.list [], c.skip 1)
        | _ => readItems room [] c fuel
    | '\x7b' :: _ =>
      match room with
      | 0 => .error ⟨.tooDeep, c.offset⟩
      | room + 1 =>
        let c := (c.skip 1).skipBlanks
        match c.rest with
        | '\x7d' :: _ => .ok (.map [], c.skip 1)
        | _ => readMembers room [] c fuel
    | _ => readAtom c

/-- Reads the items of an array behind those of `acc`. -/
def readItems (room : Nat) (acc : List Value) (c : Cursor) :
    (fuel : Nat) → Except Fault (Value × Cursor)
  | 0 => .error ⟨.expectedValue, c.offset⟩
  | fuel + 1 => do
    let (v, c) ← readValue room c fuel
    let c := c.skipBlanks
    match c.rest with
    | ']' :: _ => .ok (.list (acc ++ [v]), c.skip 1)
    | ',' :: _ => readItems room (acc ++ [v]) (c.skip 1).skipBlanks fuel
    | _ => .error ⟨.expectedComma, c.offset⟩

/-- Reads the members of an object behind those of `acc`. -/
def readMembers (room : Nat) (acc : Value.Entries) (c : Cursor) :
    (fuel : Nat) → Except Fault (Value × Cursor)
  | 0 => .error ⟨.expectedValue, c.offset⟩
  | fuel + 1 =>
    match c.rest with
    | '"' :: _ => do
      let (key, c) ← readString c.offset [] (c.skip 1) c.rest.length
      let c := c.skipBlanks
      match c.rest with
      | ':' :: _ => do
        let (v, c) ← readValue room (c.skip 1).skipBlanks fuel
        let acc := acc.put key v
        let c := c.skipBlanks
        match c.rest with
        | '\x7d' :: _ => .ok (.map acc, c.skip 1)
        | ',' :: _ => readMembers room acc (c.skip 1).skipBlanks fuel
        | _ => .error ⟨.expectedComma, c.offset⟩
      | _ => .error ⟨.expectedColon, c.offset⟩
    | _ => .error ⟨.expectedKey, c.offset⟩

end

def read (text : String) : Except Fault Value := do
  let cs := text.toList
  if cs.head? == some '\ufeff' then throw ⟨.byteOrderMark, 0⟩
  let start := (⟨cs, 0⟩ : Cursor).skipBlanks
  let (v, c) ← readValue maxDepth start (2 * cs.length + 2)
  let c := c.skipBlanks
  if c.rest.isEmpty then return v else throw ⟨.extraData, c.offset⟩

end RecordSchema.Json
