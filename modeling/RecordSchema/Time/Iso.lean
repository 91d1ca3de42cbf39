import RecordSchema.Time.DateTime
import RecordSchema.Text.Quoted

/-!
# Reading ISO 8601

Reads a date and time from its ISO form: a calendar date `YYYY-MM-DD` or
`YYYYMMDD`, or a week date `YYYY-Www-D`; then any one separator character
and a time of day, with or without colons, a fraction that is cut to six
digits, and an offset.
-/

namespace RecordSchema

/-- Why a text is no date and time. -/
inductive IsoFault where
  /-- The text does not have the form. -/
  | malformed (text : String)
  | year (n : Nat)
  | month
  | day
  | hour
  | minute
  | second
  /-- The offset is a day or longer. -/
  | offset (micros : Int)
deriving DecidableEq

def IsoFault.message : IsoFault → String
  | .malformed text => "Invalid isoformat string: " ++ Text.quote text
  | .year n => "year " ++ Digits.decimal n ++ " is out of range"
  | .month => "month must be in 1..12"
  | .day => "day is out of range for month"
  | .hour => "hour must be in 0..23"
  | .minute => "minute must be in 0..59"
  | .second => "second must be in 0..59"
  | .offset m =>
    "offset must be a timedelta strictly between -timedelta(hours=24) and timedelta(hours=24), not "
      ++ DateTime.describeSpan m ++ "."

namespace Iso

/-- Reads exactly `n` digits. -/
def digits? (n : Nat) (cs : List Char) : Option (Nat × List Char) :=
  let ds := cs.take n
  if ds.length = n then (ds.mapM Digits.ofChar?).map fun vs => (Digits.value 10 vs, cs.drop n)
  else none

/-- Whether the character at place `i` is the given one. -/
def charAt (cs : List Char) (i : Nat) (c : Char) : Bool :=
  cs[i]? == some c

/-- Whether the character at place `i` is a digit. -/
def digitAt (cs : List Char) (i : Nat) : Bool :=
  match cs[i]? with
  | some c => c.isDigit
  | none => false

/-- The length of the date part. A week date may leave out its day, and then
the digits of a time may follow. -/
def dateLength? (cs : List Char) : Option Nat :=
  let n := cs.length
  if n < 7 then none
  else if n = 7 then some 7
  else if charAt cs 4 '-' then
    if charAt cs 5 'W' then
      if n > 8 && charAt cs 8 '-' then
        if n = 9 then none
        else if n > 10 && digitAt cs 10 then some 8
        else some 10
      else some 8
    else some 10
  else if charAt cs 4 'W' then
    let run := 7 + ((cs.drop 7).takeWhile Char.isDigit).length
    if run < 9 then some run
    else if run % 2 = 0 then some 7
    else some 8
  else some 8

/-! ## Dates -/

/-- The weekday of a date, Monday being zero. -/
def weekday (year month day : Nat) : Nat :=
  (DateTime.ordinal year month day + 6) % 7

def hasWeek53 (year : Nat) : Bool :=
  let first := weekday year 1 1
  first == 3 || (first == 2 && DateTime.isLeap year)

/-- The day count of the Monday of week 1. -/
def firstMonday (year : Nat) : Int :=
  let first : Int := DateTime.ordinal year 1 1
  let wd : Int := weekday year 1 1
  let monday := first - wd
  if wd > 3 then monday + 7 else monday

/-- The calendar date of a week date. Year 0 has 52 weeks but no months, so
its dates come out with a month that no check lets pass. -/
def ofWeek? (year week day : Nat) : Option (Nat × Nat × Nat) :=
  if week = 0 ∨ week > 53 ∨ (week = 53 ∧ !(year > 0 && hasWeek53 year)) then none
  else if day = 0 ∨ day > 7 then none
  else if year = 0 then some (1, 0, 0)
  else some (DateTime.ofOrdinal (firstMonday year + ((week - 1) * 7 + day - 1 : Nat)).toNat)

/-- Reads the date part, which is `len` characters long. -/
def date? (len : Nat) (cs : List Char) : Option (Nat × Nat × Nat) := do
  let (year, rest) ← digits? 4 cs
  let (dashed, rest) := match rest with
    | '-' :: r => (true, r)
    | r => (false, r)
  match rest with
  | 'W' :: r =>
    let (week, r) ← digits? 2 r
    let used := if dashed then 8 else 7
    if used < len then
      let r ← if dashed then (match r with | '-' :: r' => some r' | _ => none) else some r
      let (day, _) ← digits? 1 r
      ofWeek? year week day
    else ofWeek? year week 1
  | r =>
    let (month, r) ← digits? 2 r
    let r ← if dashed then (match r with | '-' :: r' => some r' | _ => none) else some r
    let (day, _) ← digits? 2 r
    some (year, month, day)

/-! ## Times -/

/-- Hour, minute, second and microsecond as read. -/
structure Clock where
  hour : Nat := 0
  minute : Nat := 0
  second : Nat := 0
  micro : Nat := 0

/-- Reads the digits of a fraction; all behind the sixth are dropped. Answers
the microseconds and whether nothing is left. -/
def fraction? (cs : List Char) : Option (Nat × Bool) := do
  let used := min cs.length 6
  if used = 0 then none
  else
    let (n, rest) ← digits? used cs
    some (n * Nat.pow 10 (6 - used), (rest.dropWhile Char.isDigit).isEmpty)

/-- Sets the first, second or third part of a clock. -/
def Clock.setPart (c : Clock) (i n : Nat) : Clock :=
  match i with
  | 0 => { c with hour := n }
  | 1 => { c with minute := n }
  | _ => { c with second := n }

/-- Finishes a clock with the fraction in `cs`. -/
def Clock.withFraction? (c : Clock) (cs : List Char) : Option (Clock × Bool) :=
  (fraction? cs).map fun (micro, done) => ({ c with micro }, done)

/-- Reads part `i` and those behind it. `colons` says whether the parts are
set apart by colons, which the first separator decides. A point or comma
ends the parts. Answers whether the text is used up. -/
def clockFrom? (c : Clock) (i : Nat) (colons : Bool) (cs : List Char) :
    (parts : Nat) → Option (Clock × Bool)
  | 0 => c.withFraction? cs
  | parts + 1 => do
    let (n, rest) ← digits? 2 cs
    let c := c.setPart i n
    match rest with
    | [] => some (c, true)
    | [last] => if last.toNat < 128 then some (c, false) else none
    | sep :: r =>
      let colons := if i = 0 then sep == ':' else colons
      if colons && sep == ':' then clockFrom? c (i + 1) colons r parts
      else if sep == '.' || sep == ',' then c.withFraction? r
      else if colons then none
      else clockFrom? c (i + 1) colons rest parts

/-- Reads hours, then minutes and seconds where they are given, then a
fraction. Answers whether the text is used up. -/
def clock? (cs : List Char) : Option (Clock × Bool) :=
  clockFrom? {} 0 true cs 3

/-- Whether a character begins an offset. -/
def startsOffset (c : Char) : Bool :=
  c == '+' || c == '-' || c == 'Z'

/-- An offset in microseconds; one of less than a second is none at all. -/
def offsetOf (sign : Char) (o : Clock) : Int :=
  let seconds := o.hour * 3600 + o.minute * 60 + o.second
  let micros : Int := (seconds * DateTime.microsPerSecond + o.micro : Nat)
  if seconds = 0 then 0 else if sign == '-' then -micros else micros

/-- Reads a time of day and its offset in microseconds. -/
def time? (cs : List Char) : Option (Clock × Option Int) := do
  let head := cs.takeWhile fun c => !startsOffset c
  let zone := cs.drop head.length
  -- An offset at the very front leaves an hour that cannot be read.
  let (clock, done) ← clock? head
  match zone with
  | [] => if done then some (clock, none) else none
  | 'Z' :: r => if r.isEmpty then some (clock, some 0) else none
  | sign :: r =>
    let (o, used) ← clock? r
    if used then some (clock, some (offsetOf sign o)) else none

/-! ## Both -/

def check (t : DateTime) : Except IsoFault DateTime :=
  if t.year < 1 ∨ t.year > 9999 then .error (.year t.year)
  else if t.month < 1 ∨ t.month > 12 then .error .month
  else if t.day < 1 ∨ t.day > DateTime.daysInMonth t.year t.month then .error .day
  else if t.hour > 23 then .error .hour
  else if t.minute > 59 then .error .minute
  else if t.second > 59 then .error .second
  else .ok t

def read (text : String) : Except IsoFault DateTime :=
  let cs := text.toList
  let parsed : Option (DateTime) := do
    let len ← dateLength? cs
    let (year, month, day) ← date? len cs
    if cs.length > len then
      let (c, offset) ← time? (cs.drop (len + 1))
      some ⟨year, month, day, c.hour, c.minute, c.second, c.micro, offset⟩
    else some { year, month, day }
  match parsed with
  | none => .error (.malformed text)
  | some t =>
    match t.offset with
    | some o => if o.natAbs ≥ DateTime.microsPerDay then .error (.offset o) else check t
    | none => check t

end Iso

end RecordSchema
