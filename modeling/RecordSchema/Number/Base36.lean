import RecordSchema.Number.Digits

/-!
# Base 36

The fixed-width blocks of generated record ids. A block of width `w`
holds every number below `36 ^ w`, and blocks of one width sort as the
numbers they stand for.
-/

namespace RecordSchema.Base36

/-- The base-36 numeral of `n`, zero-padded to at least `width` characters. -/
def render (n : Nat) (width : Nat) : String :=
  String.ofList (Digits.padLeft width '0' (Digits.inBase 36 n))

def digitValue? (c : Char) : Option Nat :=
  Digits.alphabet.findIdx? (· == c)

/-- Reads a base-36 numeral, leading zeros allowed. -/
def read? (s : String) : Option Nat :=
  (s.toList.mapM digitValue?).map (Digits.value 36)

end RecordSchema.Base36
