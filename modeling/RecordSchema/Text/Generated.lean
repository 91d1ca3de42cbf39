import RecordSchema.Number.Base36

/-!
# Forms of generated texts

How generated ids look, whatever chance and the clock gave them.
-/

namespace RecordSchema.Text

def isBase36Digit (c : Char) : Bool :=
  c.isDigit || ('a' ≤ c && c ≤ 'z')

/-- A hexadecimal digit in lower case. -/
def isHexDigit (c : Char) : Bool :=
  c.isDigit || ('a' ≤ c && c ≤ 'f')

/-- The form of an id that sorts by time: `c`, twelve digits of base 36,
four to six hexadecimal digits, and eight digits of base 36. -/
def isCuid (s : String) : Bool :=
  match s.toList with
  | 'c' :: r =>
    24 ≤ r.length && r.length ≤ 26 && r.all isBase36Digit
      && ((r.drop 12).take (r.length - 20)).all isHexDigit
  | _ => false

/-- The form of a random UUID in lower case. -/
def isUuid (s : String) : Bool :=
  match (s.splitOn "-").map String.toList with
  | [a, b, c, d, e] =>
    [a, b, c, d, e].map List.length == [8, 4, 4, 4, 12] && [a, b, c, d, e].all (·.all isHexDigit)
      && c.head? == some '4' && d.head?.any fun x => "89ab".toList.contains x
  | _ => false

/-- The bytes that pairs of hexadecimal digits stand for. -/
def bytesOfHex : List Char → List UInt8
  | a :: b :: r =>
    let digit (c : Char) := (Base36.digitValue? c).getD 0
    (digit a * 16 + digit b).toUInt8 :: bytesOfHex r
  | _ => []

end RecordSchema.Text
