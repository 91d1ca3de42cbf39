import RecordSchema.Number.Digits

/-!
# Binary64

Floating-point numbers of the `binary64` format as exact values: a sign,
a mantissa and a power of two. No arithmetic of the machine is used, so
every operation here is ordinary arithmetic on natural numbers:

- `roundRatio` and `ofScaled` round an exact quotient to the nearest
  representable number, a tie going to the even mantissa;
- `shortest` finds the fewest decimal digits that read back, the nearest
  such number, and the even one of two equally near;
- `compare?` orders two numbers by their exact values.
-/

namespace RecordSchema

/-- A binary64 number. `finite s m e` stands for `m · 2 ^ e`, negated when `s`. -/
inductive Binary64 where
  | nan
  | infinity (negative : Bool)
  | finite (negative : Bool) (mantissa : Nat) (exponent : Int)
deriving DecidableEq, Inhabited

namespace Binary64

def zero : Binary64 := .finite false 0 0

/-! ## Rounding -/

/-- Smallest exponent of a mantissa. -/
def minExponent : Int := -1074

/-- Largest exponent of a mantissa. -/
def maxExponent : Int := 971

/-- The quotient `num / den` rounded to a natural number, ties to even. -/
def divRound (num den : Nat) : Nat :=
  let q := num / den
  let r := num % den
  if 2 * r < den then q
  else if 2 * r > den then q + 1
  else if q % 2 = 0 then q else q + 1

/-- `num / den / 2 ^ e`, rounded. -/
def scaledMantissa (num den : Nat) (e : Int) : Nat :=
  if e < 0 then divRound (num * Nat.pow 2 e.natAbs) den
  else divRound num (den * Nat.pow 2 e.toNat)

/-- The exponent at which the mantissa of `num / den` has 53 bits, or the
smallest exponent there is. -/
def fitExponent (num den : Nat) : Int :=
  let guess : Int := (Nat.log2 num : Int) - (Nat.log2 den : Int) - 52
  -- The guess is at most one too large.
  let below := guess - 1
  let wide := if below < 0 then num * Nat.pow 2 below.natAbs else num
  let limit := if below < 0 then den * Nat.pow 2 53 else den * Nat.pow 2 53 * Nat.pow 2 below.toNat
  max minExponent (if wide < limit then below else guess)

/-- The number nearest to `num / den`, ties to the even mantissa. -/
def roundRatio (negative : Bool) (num den : Nat) : Binary64 :=
  if num = 0 then .finite negative 0 0
  else
    let e := fitExponent num den
    let m := scaledMantissa num den e
    let (m, e) := if m = Nat.pow 2 53 then (Nat.pow 2 52, e + 1) else (m, e)
    if e > maxExponent then .infinity negative
    else if m = 0 then .finite negative 0 0
    else .finite negative m e

/-- The number nearest to `coefficient · 10 ^ exponent`. Magnitudes beyond
every finite number are settled before any power is computed. -/
def ofScaled (negative : Bool) (coefficient : Nat) (exponent : Int) : Binary64 :=
  if coefficient = 0 then .finite negative 0 0
  else
    let magnitude : Int := (Digits.digits 10 coefficient).length + exponent
    if magnitude > 400 then .infinity negative
    else if magnitude < -400 then .finite negative 0 0
    else if exponent < 0 then roundRatio negative coefficient (Nat.pow 10 exponent.natAbs)
    else roundRatio negative (coefficient * Nat.pow 10 exponent.toNat) 1

/-- The number nearest to an integer; `none` when no finite number is. -/
def ofInt? (n : Int) : Option Binary64 :=
  match roundRatio (n < 0) n.natAbs 1 with
  | .infinity _ => none
  | x => some x

/-! ## Exact values -/

def isNegative : Binary64 → Bool
  | .nan => false
  | .infinity s => s
  | .finite s _ _ => s

/-- Numerator and denominator of the magnitude of `m · 2 ^ e`. -/
def ratio (m : Nat) (e : Int) : Nat × Nat :=
  if e < 0 then (m, Nat.pow 2 e.natAbs) else (m * Nat.pow 2 e.toNat, 1)

/-- Signed numerator and denominator of a finite number. -/
def signedRatio (s : Bool) (m : Nat) (e : Int) : Int × Nat :=
  let (n, d) := ratio m e
  (if s then -(n : Int) else n, d)

/-- Order of two numbers by value; `none` when one of them is not a number. -/
def compare? : Binary64 → Binary64 → Option Ordering
  | .nan, _ => none
  | _, .nan => none
  | .infinity s, .infinity t => some (compare (if s then 0 else 1) (if t then 0 else 1 : Nat))
  | .infinity s, .finite .. => some (if s then .lt else .gt)
  | .finite .., .infinity t => some (if t then .gt else .lt)
  | .finite s m e, .finite t n f =>
    let (a, b) := signedRatio s m e
    let (c, d) := signedRatio t n f
    some (compare (a * d) (c * b))

/-- Order of a number and an integer by value. -/
def compareInt? (x : Binary64) (n : Int) : Option Ordering :=
  match x with
  | .nan => none
  | .infinity s => some (if s then .lt else .gt)
  | .finite s m e =>
    let (a, b) := signedRatio s m e
    some (compare a (n * b))

/-- The integer that a number equals, if there is one. -/
def toInt? : Binary64 → Option Int
  | .finite s m e =>
    let (n, d) := ratio m e
    if n % d = 0 then some (if s then -((n / d : Nat) : Int) else ((n / d : Nat) : Int)) else none
  | _ => none

/-! ## Shortest decimal digits -/

/-- A decimal magnitude: `coefficient · 10 ^ exponent`. -/
structure Scaled where
  coefficient : Nat
  exponent : Int
deriving DecidableEq, Repr

/-- The reals that round to `m · 2 ^ e`, and the value itself, in quarters
of the unit `2 ^ e`: low end, value, high end. -/
def interval (m : Nat) (e : Int) : Nat × Nat × Nat :=
  if m = Nat.pow 2 52 ∧ e > minExponent then (4 * m - 1, 4 * m, 4 * m + 2)
  else (4 * m - 2, 4 * m, 4 * m + 2)

/-- The point of the grid `10 ^ p` that is nearest to the value, when it
lies in the interval. The interval is given as numerators over `den`. -/
def gridPoint? (closed : Bool) (lo v hi den : Nat) (p : Int) : Option Nat :=
  let up := if p < 0 then Nat.pow 10 p.natAbs else 1
  let step := if p < 0 then den else den * Nat.pow 10 p.toNat
  let inside (q : Nat) : Bool :=
    if closed then lo * up ≤ q * step && q * step ≤ hi * up
    else lo * up < q * step && q * step < hi * up
  let q := v * up / step
  let below := v * up - q * step
  let above := (q + 1) * step - v * up
  match inside q, inside (q + 1) with
  | true, true =>
    if below < above then some q
    else if above < below then some (q + 1)
    else if q % 2 = 0 then some q else some (q + 1)
  | true, false => some q
  | false, true => some (q + 1)
  | false, false => none

/-- The first grid, from `10 ^ p` on towards finer ones, with a point in the
interval. -/
def firstGrid (closed : Bool) (lo v hi den : Nat) (p : Int) : Nat → Scaled
  | 0 => ⟨v, p⟩
  | fuel + 1 =>
    match gridPoint? closed lo v hi den p with
    | some q => if q = 0 then firstGrid closed lo v hi den (p - 1) fuel else ⟨q, p⟩
    | none => firstGrid closed lo v hi den (p - 1) fuel

/-- Moves the zeros at the end of the coefficient into the exponent. -/
def Scaled.trim (s : Scaled) : Scaled :=
  if _h : s.coefficient ≠ 0 ∧ s.coefficient % 10 = 0 then
    Scaled.trim ⟨s.coefficient / 10, s.exponent + 1⟩
  else s
termination_by s.coefficient
decreasing_by
  exact Nat.div_lt_self (by omega) (by omega)

/-- The fewest digits that read back as `m · 2 ^ e`, for a positive mantissa. -/
def shortest (m : Nat) (e : Int) : Scaled :=
  let (lo, v, hi) := interval m e
  let (scale, den) := if e < 0 then (1, 4 * Nat.pow 2 e.natAbs) else (Nat.pow 2 e.toNat, 4)
  let top : Int :=
    (Digits.digits 10 (v * scale / den)).length
  -- A value below one starts at the grid that its leading zeros leave.
  let start : Int :=
    if v * scale / den > 0 then top - 1
    else 1 - ((Digits.digits 10 (den / (v * scale))).length : Int)
  (firstGrid (m % 2 = 0) (lo * scale) (v * scale) (hi * scale) den start 25).trim

/-! ## Text -/

/-- How a format lays out the digits of a number. -/
structure Layout where
  /-- Largest count of digits before the point that is written positionally. -/
  maxWhole : Int
  /-- Largest count of zeros behind the point that is written positionally. -/
  maxZeros : Int
  /-- Least count of digits in the exponent. -/
  exponentWidth : Nat
  /-- Whether a single digit before an exponent is followed by `.0`. -/
  fraction : Bool

/-- Numbers are positional from `0.0001` up to sixteen digits and keep a
fraction of `.0`; beyond that the exponent has a sign and two digits. -/
def Layout.standard : Layout := ⟨16, 3, 2, false⟩

/-- Numbers are positional up to fifteen digits, and always have a fraction. -/
def Layout.stored : Layout := ⟨15, 3, 2, true⟩

/-- The text of a decimal magnitude. -/
def Scaled.render (layout : Layout) (s : Scaled) : String :=
  let ds := Digits.inBase 10 s.coefficient
  let point : Int := ds.length + s.exponent
  if point > layout.maxWhole ∨ point < -layout.maxZeros then
    let head := ds.take 1
    let tail := ds.drop 1
    let tail := if tail.isEmpty && layout.fraction then ['0'] else tail
    let body := if tail.isEmpty then head else head ++ '.' :: tail
    let ex := point - 1
    let sign := if ex < 0 then '-' else '+'
    String.ofList (body ++ 'e' :: sign ::
      Digits.padLeft layout.exponentWidth '0' (Digits.inBase 10 ex.natAbs))
  else if point ≤ 0 then
    String.ofList ('0' :: '.' :: List.replicate point.natAbs '0' ++ ds)
  else
    let whole := ds.take point.toNat
    let whole := whole ++ List.replicate (point.toNat - whole.length) '0'
    let fraction := ds.drop point.toNat
    String.ofList (whole ++ '.' :: (if fraction.isEmpty then ['0'] else fraction))

/-- The text of a number: fewest digits that read back. -/
def render : Binary64 → String
  | .nan => "nan"
  | .infinity s => if s then "-inf" else "inf"
  | .finite s 0 _ => if s then "-0.0" else "0.0"
  | .finite s m e =>
    let body := (shortest m e).render .standard
    if s then "-" ++ body else body

/-- The magnitude rounded to at most `count` significant digits. -/
def significant (count : Nat) (m : Nat) (e : Int) : Scaled :=
  let s := shortest m e
  let p : Int := (Digits.digits 10 s.coefficient).length + s.exponent - count
  let (n, d) := ratio m e
  let q := if p < 0 then divRound (n * Nat.pow 10 p.natAbs) d else divRound n (d * Nat.pow 10 p.toNat)
  Scaled.trim ⟨q, p⟩

/-- The text of a number that storage makes: fifteen significant digits. -/
def renderStored : Binary64 → String
  | .nan => ""
  | .infinity s => if s then "-Inf" else "Inf"
  | .finite _ 0 _ => "0.0"
  | .finite s m e =>
    let body := (significant 15 m e).render .stored
    if s then "-" ++ body else body

/-- The magnitude with exactly `places` digits behind the point, a tie going
to the even digit, as a count of units of the last place. -/
def unitsAt (places : Nat) (m : Nat) (e : Int) : Nat :=
  let (n, d) := ratio m e
  divRound (n * Nat.pow 10 places) d

end Binary64

end RecordSchema
