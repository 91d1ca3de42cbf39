import RecordSchema.Number.Digits

/-!
# Dates and times

A date of the proleptic Gregorian calendar with a time of day and, when
it is bound to a zone, the zone's distance from universal time. `render`
gives the ISO form; `stored` gives the form in a table, which drops the
offset without converting.
-/

namespace RecordSchema

/-- A date and time of day. The offset counts microseconds. -/
structure DateTime where
  year : Nat
  month : Nat
  day : Nat
  hour : Nat := 0
  minute : Nat := 0
  second : Nat := 0
  micro : Nat := 0
  offset : Option Int := none
deriving DecidableEq, Inhabited

namespace DateTime

/-! ## The calendar -/

def isLeap (year : Nat) : Bool :=
  year % 4 == 0 && (year % 100 != 0 || year % 400 == 0)

def daysInMonth (year month : Nat) : Nat :=
  match month with
  | 2 => if isLeap year then 29 else 28
  | 4 | 6 | 9 | 11 => 30
  | _ => 31

/-- The number of days before January 1 of a year, from January 1 of year 1. -/
def daysBeforeYear (year : Nat) : Nat :=
  let y := year - 1
  y * 365 + y / 4 - y / 100 + y / 400

/-- The number of days of a year before the first of a month. -/
def daysBeforeMonth (year : Nat) : (month : Nat) → Nat
  | 0 => 0
  | 1 => 0
  | m + 2 => daysBeforeMonth year (m + 1) + daysInMonth year (m + 1)

/-- The day count of a date; January 1 of year 1 is day 1. -/
def ordinal (year month day : Nat) : Nat :=
  daysBeforeYear year + daysBeforeMonth year month + day

/-- The month and day of the `n`-th day of a year, counted from one. -/
def monthDay (year : Nat) (n : Nat) : (month : Nat) → (fuel : Nat) → Nat × Nat
  | month, 0 => (month, n)
  | month, fuel + 1 =>
    let len := daysInMonth year month
    if n ≤ len then (month, n) else monthDay year (n - len) (month + 1) fuel

/-- The year of a day count, and the day within it. -/
def yearDay (n : Nat) : Nat × Nat :=
  -- No year is longer than 366 days, and none shorter than 365.
  let low := (n - 1) / 366 + 1
  let rec go (year : Nat) : Nat → Nat × Nat
    | 0 => (year, n - daysBeforeYear year)
    | fuel + 1 =>
      if n ≤ daysBeforeYear (year + 1) then (year, n - daysBeforeYear year) else go (year + 1) fuel
  go low (n / 365 + 2 - low)

/-- The date of a day count. -/
def ofOrdinal (n : Nat) : Nat × Nat × Nat :=
  let (year, d) := yearDay n
  let (month, day) := monthDay year d 1 11
  (year, month, day)

/-! ## Writing -/

def microsPerSecond : Nat := 1000000

def microsPerDay : Nat := 86400 * microsPerSecond

/-- An offset as a sign, hours, minutes, and seconds where they are not zero. -/
def renderOffset (offset : Int) : String :=
  let n := offset.natAbs
  let seconds := n / microsPerSecond
  let micro := n % microsPerSecond
  (if offset < 0 then "-" else "+")
    ++ Digits.padded 2 (seconds / 3600) ++ ":" ++ Digits.padded 2 (seconds / 60 % 60)
    ++ (if seconds % 60 = 0 ∧ micro = 0 then "" else ":" ++ Digits.padded 2 (seconds % 60))
    ++ (if micro = 0 then "" else "." ++ Digits.padded 6 micro)

/-- The date part of the ISO form. -/
def renderDate (t : DateTime) : String :=
  Digits.padded 4 t.year ++ "-" ++ Digits.padded 2 t.month ++ "-" ++ Digits.padded 2 t.day

/-- The time of day to the second. -/
def renderClock (t : DateTime) : String :=
  Digits.padded 2 t.hour ++ ":" ++ Digits.padded 2 t.minute ++ ":" ++ Digits.padded 2 t.second

/-- The ISO form with `separator` between date and time; a fraction has six
digits and is left out when it is zero. -/
def renderWith (separator : String) (t : DateTime) : String :=
  t.renderDate ++ separator ++ t.renderClock
    ++ (if t.micro = 0 then "" else "." ++ Digits.padded 6 t.micro)
    ++ (match t.offset with | none => "" | some o => renderOffset o)

/-- The ISO form. -/
def render (t : DateTime) : String :=
  t.renderWith "T"

/-- The form in a table: always six digits of fraction, never an offset. -/
def stored (t : DateTime) : String :=
  t.renderDate ++ " " ++ t.renderClock ++ "." ++ Digits.padded 6 t.micro

/-- The same date and time of day without its offset. -/
def naive (t : DateTime) : DateTime :=
  { t with offset := none }

/-- A span of time in a message: days, seconds and microseconds, with only
the days negative. -/
def describeSpan (micros : Int) : String :=
  let day : Int := microsPerDay
  let days := Int.fdiv micros day
  let rest := (micros - days * day).toNat
  let seconds := rest / microsPerSecond
  let micro := rest % microsPerSecond
  let parts :=
    (if days = 0 then [] else ["days=" ++ Digits.signed days])
      ++ (if seconds = 0 then [] else ["seconds=" ++ Digits.decimal seconds])
      ++ (if micro = 0 then [] else ["microseconds=" ++ Digits.decimal micro])
  "datetime.timedelta(" ++ (if parts.isEmpty then "0" else ", ".intercalate parts) ++ ")"

/-- The form in a message. -/
def describe (t : DateTime) : String :=
  let required := [t.year, t.month, t.day, t.hour, t.minute]
  let optional :=
    if t.micro ≠ 0 then [t.second, t.micro] else if t.second ≠ 0 then [t.second] else []
  let zone := match t.offset with
    | none => []
    | some o =>
      if o = 0 then ["tzinfo=datetime.timezone.utc"]
      else ["tzinfo=datetime.timezone(" ++ describeSpan o ++ ")"]
  "datetime.datetime(" ++ ", ".intercalate ((required ++ optional).map Digits.decimal ++ zone) ++ ")"

/-! ## Moments -/

/-- Microseconds from the start of year 1, in universal time when there is an
offset. -/
def micros (t : DateTime) : Int :=
  let seconds := ordinal t.year t.month t.day * 86400 + t.hour * 3600 + t.minute * 60 + t.second
  (seconds * microsPerSecond + t.micro : Nat) - t.offset.getD 0

/-- The date and time `n` microseconds from the start of year 1. -/
def ofMicros (n : Nat) (offset : Option Int) : DateTime :=
  let seconds := n / microsPerSecond
  let (year, month, day) := ofOrdinal (seconds / 86400)
  let s := seconds % 86400
  { year, month, day, hour := s / 3600, minute := s / 60 % 60, second := s % 60,
    micro := n % microsPerSecond, offset }

end DateTime

end RecordSchema
