/-!
# Digits

Numerals of natural numbers: writing in a base, padding, and reading
back. Everything that prints a number in this library goes through
`decimal` or `inBase`, so no output hangs on an instance of the core
library.
-/

namespace RecordSchema.Digits

/-- The digit characters of bases up to thirty-six. -/
def alphabet : List Char :=
  "0123456789abcdefghijklmnopqrstuvwxyz".toList

/-- The character of digit `d`. -/
def digit (d : Nat) : Char :=
  alphabet.getD d '?'

/-- Digits of `n` in base `b`, least significant first; none for zero. -/
def reversed (b : Nat) (n : Nat) : List Nat :=
  if _h : n = 0 ∨ b ≤ 1 then []
  else n % b :: reversed b (n / b)
termination_by n
decreasing_by
  exact Nat.div_lt_self (by omega) (by omega)

/-- Digits of `n` in base `b`, most significant first; none for zero. -/
def digits (b n : Nat) : List Nat :=
  (reversed b n).reverse

/-- Pads `s` with `c` on the left up to `width` characters. -/
def padLeft (width : Nat) (c : Char) (s : List Char) : List Char :=
  List.replicate (width - s.length) c ++ s

/-- The numeral of `n` in base `b`, with at least one digit. -/
def inBase (b n : Nat) : List Char :=
  match digits b n with
  | [] => ['0']
  | ds => ds.map digit

/-- The decimal numeral of `n`. -/
def decimal (n : Nat) : String :=
  String.ofList (inBase 10 n)

/-- The decimal numeral of `n`, zero-padded to `width` characters. -/
def padded (width n : Nat) : String :=
  String.ofList (padLeft width '0' (inBase 10 n))

/-- The decimal numeral of an integer, with a minus sign below zero. -/
def signed (n : Int) : String :=
  if n < 0 then "-" ++ decimal n.natAbs else decimal n.natAbs

/-- The value of a list of digits in base `b`, most significant first. -/
def value (b : Nat) (ds : List Nat) : Nat :=
  ds.foldl (fun acc d => acc * b + d) 0

/-- The value of an ASCII decimal digit. -/
def ofChar? (c : Char) : Option Nat :=
  if c.isDigit then some (c.toNat - '0'.toNat) else none

/-- Reads a non-empty run of ASCII decimal digits. -/
def read? (cs : List Char) : Option Nat :=
  if cs.isEmpty then none
  else (cs.mapM ofChar?).map (value 10)

/-- Hexadecimal numeral of `n`, lower case, zero-padded to `width`. -/
def hex (width n : Nat) : String :=
  String.ofList (padLeft width '0' (inBase 16 n))

end RecordSchema.Digits
