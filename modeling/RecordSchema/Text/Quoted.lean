import RecordSchema.Number.Digits
import RecordSchema.Text.CharSet

/-!
# Quoted text

The quoted form of a text in messages: single quotes, or double quotes
when the text holds a single quote and no double one. Backslashes, the
quote itself and characters that cannot be printed are escaped.
-/

namespace RecordSchema.Text

/-- The escape of a character by its code point, as short as it fits. -/
def escapeCode (n : Nat) : List Char :=
  if n < 0x100 then '\\' :: 'x' :: (Digits.hex 2 n).toList
  else if n < 0x10000 then '\\' :: 'u' :: (Digits.hex 4 n).toList
  else '\\' :: 'U' :: (Digits.hex 8 n).toList

/-- One character inside quotes `q`. -/
def quoteChar (q c : Char) : List Char :=
  if c == '\\' || c == q then ['\\', c]
  else if c == '\n' then ['\\', 'n']
  else if c == '\t' then ['\\', 't']
  else if c == '\r' then ['\\', 'r']
  else if printable.contains c then [c]
  else escapeCode c.toNat

def quoteMark (cs : List Char) : Char :=
  if cs.contains '\'' && !cs.contains '"' then '"' else '\''

/-- The quoted form of a text. -/
def quote (s : String) : String :=
  let cs := s.toList
  let q := quoteMark cs
  String.ofList (q :: cs.flatMap (quoteChar q) ++ [q])

/-- Quoted texts in brackets. -/
def quoteList (xs : List String) : String :=
  "[" ++ ", ".intercalate (xs.map quote) ++ "]"

/-- The members of a tuple; a single member keeps its comma. -/
def tupleOf (members : List String) : String :=
  match members with
  | [x] => "(" ++ x ++ ",)"
  | xs => "(" ++ ", ".intercalate xs ++ ")"

/-- Bytes in their quoted form: the marks and escapes of a text, with every
byte outside printable ASCII written in hexadecimal. -/
def quoteBytes (bs : List UInt8) : String :=
  let cs := bs.map fun b => Char.ofNat b.toNat
  let q := quoteMark cs
  let one (c : Char) : List Char :=
    if c.toNat < 0x7f then quoteChar q c else escapeCode c.toNat
  String.ofList ('b' :: q :: cs.flatMap one ++ [q])

end RecordSchema.Text
