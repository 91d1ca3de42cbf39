import RecordSchema.Value.Printer

/-!
# Writing JSON

The text of a JSON value: members set apart by a comma and a blank, keys
by a colon and a blank, and every character outside printable ASCII
escaped. Keys that are no texts are written as texts.

`Value.normal?` is the value that the text stands for: lists for tuples,
text keys, and the last of equal keys.
-/

namespace RecordSchema

namespace Json

/-! ## Texts -/

def escapeUnit (n : Nat) : String :=
  "\\u" ++ Digits.hex 4 n

/-- A character within a JSON text. -/
def quoteChar (c : Char) : String :=
  let n := c.toNat
  if c == '"' then "\\\""
  else if c == '\\' then "\\\\"
  else if c == '\n' then "\\n"
  else if c == '\r' then "\\r"
  else if c == '\t' then "\\t"
  else if n = 8 then "\\b"
  else if n = 12 then "\\f"
  else if n < 32 ∨ (126 < n ∧ n < 0x10000) then escapeUnit n
  else if n < 127 then c.toString
  else
    let m := n - 0x10000
    escapeUnit (0xd800 + m / 0x400) ++ escapeUnit (0xdc00 + m % 0x400)

/-- A text in double quotes, in ASCII. -/
def quote (s : String) : String :=
  "\"" ++ String.join (s.toList.map quoteChar) ++ "\""

/-- The text of a number of the binary format. -/
def writeFloat : Binary64 → String
  | .nan => "NaN"
  | .infinity s => if s then "-Infinity" else "Infinity"
  | x => x.render

/-- The key that a value becomes in an object, if it can be one. -/
def keyOf? : Value → Option String
  | .text s => some s
  | .null => some "null"
  | .bool b => some (if b then "true" else "false")
  | .int n => some (Digits.signed n)
  | .float x => some (writeFloat x)
  | _ => none

/-! ## Values -/

mutual

/-- The text of a value; what JSON cannot express is left out. -/
def write : Value → String
  | .null => "null"
  | .bool b => if b then "true" else "false"
  | .int n => Digits.signed n
  | .float x => writeFloat x
  | .text s => quote s
  | .list vs => "[" ++ ", ".intercalate (writeAll vs) ++ "]"
  | .tuple vs => "[" ++ ", ".intercalate (writeAll vs) ++ "]"
  | .map es => "\x7b" ++ ", ".intercalate (writeEntries es) ++ "\x7d"
  | _ => ""

/-- The texts of several values. -/
def writeAll : List Value → List String
  | [] => []
  | v :: r => write v :: writeAll r

/-- The texts of the entries of an object. -/
def writeEntries : List (Value × Value) → List String
  | [] => []
  | (k, v) :: r => (quote ((keyOf? k).getD "") ++ ": " ++ write v) :: writeEntries r

end

end Json

namespace Value

mutual

/-- The value that the JSON text of a value stands for; none for a value
that has no JSON text. -/
def normal? : Value → Option Value
  | .null => some .null
  | .bool b => some (.bool b)
  | .int n => some (.int n)
  | .float x => some (.float x)
  | .text s => some (.text s)
  | .list vs => (normalAll? vs).map .list
  | .tuple vs => (normalAll? vs).map .list
  | .map es => (normalEntries? es).map ofEntries
  | _ => none

/-- The values that the texts of several values stand for. -/
def normalAll? : List Value → Option (List Value)
  | [] => some []
  | v :: r => do
    let w ← normal? v
    let ws ← normalAll? r
    some (w :: ws)

def normalEntries? : List (Value × Value) → Option (List (Value × Value))
  | [] => some []
  | (k, v) :: r => do
    let key ← Json.keyOf? k
    let w ← normal? v
    let es ← normalEntries? r
    some ((.text key, w) :: es)

end

end Value

end RecordSchema
