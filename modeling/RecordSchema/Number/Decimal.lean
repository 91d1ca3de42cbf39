import RecordSchema.Number.Binary64
import RecordSchema.Text.Case

/-!
# Decimal numbers

Decimal numbers that keep their digits and exponent, so that `1.50` and
`1.5` are different numbers with one value. `read?` accepts the usual
numeral grammar, `render` writes a number so that it reads back, and
`ofBinary` gives the number that a stored binary value shows with a
fixed count of places.
-/

namespace RecordSchema

/-- A decimal number: `finite s c e` stands for `c · 10 ^ e`, negated when `s`. -/
inductive Decimal where
  | finite (negative : Bool) (coefficient : Nat) (exponent : Int)
  | infinity (negative : Bool)
  | nan (negative signaling : Bool) (payload : Nat)
deriving DecidableEq, Inhabited

namespace Decimal

/-! ## Writing -/

/-- The text of a finite magnitude: positional unless the exponent is
positive or more than six places follow the point before the first digit. -/
def renderMagnitude (c : Nat) (e : Int) : List Char :=
  let ds := Digits.inBase 10 c
  let left : Int := ds.length + e
  let positional := e ≤ 0 ∧ left > -6
  let point := if positional then left else 1
  let body :=
    if point ≤ 0 then '0' :: '.' :: List.replicate point.natAbs '0' ++ ds
    else if point ≥ ds.length then ds ++ List.replicate (point.toNat - ds.length) '0'
    else ds.take point.toNat ++ '.' :: ds.drop point.toNat
  if positional then body
  else
    let ex := left - 1
    if ex = 0 then body
    else body ++ 'E' :: (if ex < 0 then '-' else '+') :: Digits.inBase 10 ex.natAbs

/-- The text of a number. -/
def render (d : Decimal) : String :=
  let sign (s : Bool) : List Char := if s then ['-'] else []
  String.ofList <| match d with
    | .finite s c e => sign s ++ renderMagnitude c e
    | .infinity s => sign s ++ "Infinity".toList
    | .nan s signaling payload =>
      sign s ++ (if signaling then ['s'] else []) ++ "NaN".toList ++
        (if payload = 0 then [] else Digits.inBase 10 payload)

/-! ## Reading -/

/-- A numeral with its digits of any script turned into ASCII ones; `none`
when a character is neither ASCII nor a digit nor blank. Underscores are
left out. -/
def toAscii? (cs : List Char) : Option (List Char) :=
  (cs.filter (· != '_')).mapM fun c =>
    if 0 < c.toNat && c.toNat < 128 then some c
    else if Text.blank.contains c then some ' '
    else (Text.digitValue? c).map Digits.digit

/-- Splits a sign off the front. -/
def takeSign : List Char → Bool × List Char
  | '-' :: r => (true, r)
  | '+' :: r => (false, r)
  | r => (false, r)

/-- Splits a run of digits off the front. -/
def takeDigits (cs : List Char) : List Char × List Char :=
  cs.span Char.isDigit

/-- The value of a run of digits, zero for none. -/
def number (ds : List Char) : Nat :=
  Digits.value 10 (ds.filterMap Digits.ofChar?)

/-- Reads the exponent behind the digits; no exponent is zero. -/
def readExponent? : List Char → Option Int
  | [] => some 0
  | c :: r =>
    if c == 'e' || c == 'E' then
      let (s, ds) := takeSign r
      (Digits.read? ds).map fun n => if s then -(n : Int) else n
    else none

/-- Largest adjusted exponent of a number. -/
def maxAdjusted : Int := 999999999999999999

/-- Smallest exponent of a coefficient. -/
def minExponent : Int := -1999999999999999997

/-- Reads digits with an optional point and exponent. -/
def readFinite? (s : Bool) (cs : List Char) : Option Decimal := do
  let (whole, rest) := takeDigits cs
  let (fraction, rest) := match rest with
    | '.' :: r => takeDigits r
    | r => ([], r)
  if whole.isEmpty && fraction.isEmpty then none
  else
    let ex ← readExponent? rest
    let c := number (whole ++ fraction)
    let e := ex - fraction.length
    let adjusted := if c = 0 then e else e + (Digits.digits 10 c).length - 1
    if adjusted > maxAdjusted ∨ e < minExponent then none
    else some (.finite s c e)

/-- Reads the word that stands for a special number. -/
def readSpecial? (s : Bool) (cs : List Char) : Option Decimal :=
  let low := cs.map Char.toLower
  let payload? (r : List Char) : Option Nat :=
    if r.all Char.isDigit then some (number r) else none
  if low == "inf".toList || low == "infinity".toList then some (.infinity s)
  else if "snan".toList.isPrefixOf low then (payload? (low.drop 4)).map (.nan s true)
  else if "nan".toList.isPrefixOf low then (payload? (low.drop 3)).map (.nan s false)
  else none

/-- Reads a decimal number, blanks at both ends allowed. -/
def read? (text : String) : Option Decimal := do
  let cs ← toAscii? (Text.strip text).toList
  let (s, rest) := takeSign cs
  (readFinite? s rest).orElse fun _ => readSpecial? s rest

/-! ## Binary values -/

/-- The nearest binary number; a signaling NaN has none. -/
def toBinary? : Decimal → Option Binary64
  | .finite s c e => some (.ofScaled s c e)
  | .infinity s => some (.infinity s)
  | .nan _ signaling _ => if signaling then none else some .nan

/-- The decimal number that a binary one shows with `places` digits behind
the point. -/
def ofBinary (places : Nat) : Binary64 → Decimal
  | .nan => .nan false false 0
  | .infinity s => .infinity s
  | .finite s m e => .finite s (Binary64.unitsAt places m e) (-(places : Int))

def isNan : Decimal → Bool
  | .nan .. => true
  | _ => false

end Decimal

end RecordSchema
