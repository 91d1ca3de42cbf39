import RecordSchema.Number.Base36
import RecordSchema.Time.DateTime

/-!
# Supplies of chance and time

Generated values draw on a supply: an endless sequence of random numbers
and an endless sequence of clock readings. Nothing in the library
depends on what the sequences hold.
-/

namespace RecordSchema

/-- A supply of random numbers and clock readings, and how much of it is used. -/
structure Supply where
  random : Nat → Nat
  clock : Nat → DateTime
  /-- Distinguishes the process that generates ids. -/
  fingerprint : Nat
  used : Nat := 0

namespace Supply

/-- The next random number. -/
def draw (s : Supply) : Nat × Supply :=
  (s.random s.used, { s with used := s.used + 1 })

/-- The next clock reading. -/
def now (s : Supply) : DateTime × Supply :=
  (s.clock s.used, { s with used := s.used + 1 })

/-- The next `n` random bytes. -/
def bytes (s : Supply) : Nat → List Nat × Supply
  | 0 => ([], s)
  | n + 1 =>
    let (b, s) := s.draw
    let (bs, s) := s.bytes n
    (b % 256 :: bs, s)

end Supply

/-! ## Generated texts -/

/-- Milliseconds between the start of 1970 and a point in time. -/
def DateTime.unixMillis (t : DateTime) : Nat :=
  ((t.micros - (DateTime.ordinal 1970 1 1 * DateTime.microsPerDay : Nat)) / 1000).toNat

/-- An id that sorts by time: `c`, the time, a counter, the fingerprint of
the process, and chance. -/
def cuidText (millis counter fingerprint chance : Nat) : String :=
  "c" ++ Base36.render (millis % Nat.pow 36 8) 8 ++ Base36.render (counter % Nat.pow 36 4) 4
    ++ Digits.hex 2 (fingerprint % 256) ++ Digits.hex 2 (fingerprint / 256 % 256)
    ++ Base36.render (chance % Nat.pow 36 8) 8

/-- A random UUID from sixteen bytes. -/
def uuidText (bs : List Nat) : String :=
  let bs := (List.range 16).map fun i =>
    let b := bs.getD i 0
    if i = 6 then 0x40 + b % 16 else if i = 8 then 0x80 + b % 64 else b
  let part (i n : Nat) := String.join (((bs.drop i).take n).map (Digits.hex 2))
  "-".intercalate [part 0 4, part 4 2, part 6 2, part 8 2, part 10 6]

/-- Bytes as hexadecimal text. -/
def hexText (bs : List Nat) : String :=
  String.join (bs.map (Digits.hex 2))

/-- The digits of the URL-safe base 64. -/
def base64Alphabet : List Char :=
  "ABCDEFGHIJKLMNOPQRSTUVWXYZabcdefghijklmnopqrstuvwxyz0123456789-_".toList

def base64Digit (n : Nat) : Char :=
  base64Alphabet.getD (n % 64) 'A'

/-- Bytes in the URL-safe base 64, without padding. -/
def base64Chars : List Nat → List Char
  | a :: b :: c :: r =>
    let n := a * 65536 + b * 256 + c
    base64Digit (n / 262144) :: base64Digit (n / 4096) :: base64Digit (n / 64) :: base64Digit n ::
      base64Chars r
  | [a, b] =>
    let n := a * 65536 + b * 256
    [base64Digit (n / 262144), base64Digit (n / 4096), base64Digit (n / 64)]
  | [a] =>
    let n := a * 65536
    [base64Digit (n / 262144), base64Digit (n / 4096)]
  | [] => []

end RecordSchema
