/-
  Dates and timestamps.

  A `Timestamp` keeps the text it was read from and the instant it stands for, in nanoseconds from
  1970-01-01T00:00:00Z.  `Timestamp.read?` knows two forms (`zoned?` and `naive?`):
  * a date, any one character of one byte, a time with seconds, and an offset;
  * a date with an optional sign, alone or followed by `T` or a space and a time, in UTC.
  All numbers have a fixed count of digits.
-/
import PocketSql.Number.Integer
import PocketSql.Text.Basic
import PocketSql.Time.Calendar

namespace PocketSql

/-- Whether a text gave a time of day. -/
inductive Precision
  | date
  | time
deriving DecidableEq, Repr

/-- An instant and the text that gave it. -/
structure Timestamp where
  text : String
  precision : Precision
  /-- Nanoseconds from the start of 1970, in UTC. -/
  nanos : Int
deriving DecidableEq, Repr

/-- A time of day. -/
structure DayTime where
  hour : Nat
  minute : Nat
  second : Nat
  nano : Nat
deriving DecidableEq, Repr

namespace DayTime

/-- The start of the day. -/
def midnight : DayTime := ⟨0, 0, 0, 0⟩

/-- A time on the clock, a leap second apart. -/
def isValid (t : DayTime) : Bool :=
  decide (t.hour < 24) && decide (t.minute < 60) && decide (t.second < 60)

/-- Seconds from the start of the day. -/
def seconds (t : DayTime) : Nat :=
  3600 * t.hour + 60 * t.minute + t.second

end DayTime

/-- The instant of a day and a time in UTC. -/
def instantNanos (d : CivilDate) (t : DayTime) : Int :=
  (86400 * d.epochDay + t.seconds) * 1000000000 + t.nano

/-! ## Parts of a text -/

/-- Exactly `count` digits at the start of a text. -/
def readFixed (count : Nat) (cs : List Char) : Option (Nat × List Char) :=
  let digits := cs.take count
  if digits.length = count && digits.all Char.isDigit then some (digitsValue digits, cs.drop count)
  else none

/-- One given character at the start of a text. -/
def readMark (mark : Char) : List Char → Option (List Char)
  | c :: rest => if c = mark then some rest else none
  | [] => none

/-- A date, `YYYY-MM-DD`. -/
def readDate (cs : List Char) : Option (CivilDate × List Char) := do
  let (year, cs) ← readFixed 4 cs
  let cs ← readMark '-' cs
  let (month, cs) ← readFixed 2 cs
  let cs ← readMark '-' cs
  let (day, cs) ← readFixed 2 cs
  some (⟨year, month, day⟩, cs)

/-- A date whose year may have a sign. -/
def readSignedDate (cs : List Char) : Option (CivilDate × List Char) := do
  let (negative, cs) := splitSign cs
  let (date, cs) ← readDate cs
  some (if negative then { date with year := -date.year } else date, cs)

/-- Hour and minute, `HH:MM`. -/
def readHourMinute (cs : List Char) : Option ((Nat × Nat) × List Char) := do
  let (hour, cs) ← readFixed 2 cs
  let cs ← readMark ':' cs
  let (minute, cs) ← readFixed 2 cs
  some ((hour, minute), cs)

/-- The nanoseconds given by the digits of a fraction; those past the ninth are dropped. -/
def fractionNanos (digits : List Char) : Nat :=
  digitsValue ((digits ++ List.replicate 9 '0').take 9)

/-- A fraction of a second: a point and at least one digit. -/
def readFraction (cs : List Char) : Option (List Char × List Char) := do
  let cs ← readMark '.' cs
  let (digits, cs) := cs.span Char.isDigit
  if digits.isEmpty then none else some (digits, cs)

/-! ## The zoned form -/

/-- An offset from UTC in seconds: `Z`, or a sign, hours and minutes. -/
def readOffset : List Char → Option Int
  | ['Z'] => some 0
  | ['z'] => some 0
  | sign :: cs =>
    match readHourMinute cs with
    | some ((hour, minute), []) =>
      if 23 < hour || 59 < minute then none
      else if sign = '+' then some (3600 * hour + 60 * minute : Nat)
      else if sign = '-' then some (-(3600 * hour + 60 * minute : Nat))
      else none
    | _ => none
  | [] => none

/-- A second 60 may stand only where leap seconds are: when it is 23:59 in UTC on the last day of
    a month.  The UTC day is the day of the text or one next to it. -/
def allowsLeapSecond (d : CivilDate) (t : DayTime) (offset : Int) : Bool :=
  let utc := (t.seconds : Int) - offset
  let day := (d.day : Int) + utc / 86400
  utc % 86400 == 86399 && (day == 0 || day == monthLength d.year d.month)

/-- The instant of a date, time and offset.  A leap second is the last nanosecond before it. -/
def zonedNanos (d : CivilDate) (t : DayTime) (offset : Int) : Option Int :=
  let leap := t.second == 60
  let time : DayTime := if leap then { t with second := 59, nano := 999999999 } else t
  if d.isValid && time.isValid && (!leap || allowsLeapSecond d time offset) then
    some (instantNanos d time - offset * 1000000000)
  else none

/-- The instant of a date and time with an offset. -/
def zoned? (cs : List Char) : Option Int := do
  let (date, cs) ← readDate cs
  let separator ← cs.head?
  if separator.toNat < 0x80 then
    let ((hour, minute), cs) ← readHourMinute cs.tail
    let cs ← readMark ':' cs
    let (second, cs) ← readFixed 2 cs
    let (fraction, cs) := (readFraction cs).getD ([], cs)
    let offset ← readOffset cs
    zonedNanos date ⟨hour, minute, second, fractionNanos fraction⟩ offset
  else none

/-! ## The naive form -/

/-- The seconds that may follow hour and minute: none, `:SS`, or `:SS.f` with at most 32 digits. -/
def readSeconds (cs : List Char) : Option (Nat × Nat) :=
  if cs.isEmpty then some (0, 0)
  else do
    let cs ← readMark ':' cs
    let (second, cs) ← readFixed 2 cs
    if cs.isEmpty then some (second, 0)
    else
      let (fraction, cs) ← readFraction cs
      if cs.isEmpty && decide (fraction.length ≤ 32) then some (second, fractionNanos fraction)
      else none

/-- A time of day after a date, up to the end of the text. -/
def readDayTime (cs : List Char) : Option DayTime := do
  let separator ← cs.head?
  if separator = 'T' || separator = ' ' then
    let ((hour, minute), cs) ← readHourMinute cs.tail
    let (second, nano) ← readSeconds cs
    some ⟨hour, minute, second, nano⟩
  else none

/-- The precision and the instant of a date, or of a date and time, in UTC. -/
def naive? (cs : List Char) : Option (Precision × Int) := do
  let (date, cs) ← readSignedDate cs
  if date.isValid then
    if cs.isEmpty then some (.date, instantNanos date .midnight)
    else
      let time ← readDayTime cs
      if time.isValid then some (.time, instantNanos date time) else none
  else none

/-! ## Timestamps -/

namespace Timestamp

/-- A date or timestamp in text; blanks around it are dropped, and not kept. -/
def read? (text : List Char) : Option Timestamp :=
  let cs := trim text
  match zoned? cs with
  | some nanos => some ⟨String.ofList cs, .time, nanos⟩
  | none => (naive? cs).map fun (precision, nanos) => ⟨String.ofList cs, precision, nanos⟩

/-- A number with zeros in front up to a width. -/
def padded (width n : Nat) : List Char :=
  let digits := Nat.toDigits 10 n
  List.replicate (width - digits.length) '0' ++ digits

/-- The digits of a fraction of nanoseconds, without the zeros at their end. -/
def fractionText (nano : Nat) : List Char :=
  if nano = 0 then []
  else '.' :: ((padded 9 nano).reverse.dropWhile (· = '0')).reverse

/-- The timestamp of an instant from 1970 on, with a text in UTC. -/
def ofNanos (nanos : Nat) : Timestamp :=
  let date := CivilDate.ofEpochDay (nanos / 86400000000000)
  let second := nanos / 1000000000 % 86400
  ⟨String.ofList (padded 4 date.year.toNat ++ '-' :: padded 2 date.month ++ '-' ::
      padded 2 date.day ++ 'T' :: padded 2 (second / 3600) ++ ':' ::
      padded 2 (second / 60 % 60) ++ ':' :: padded 2 (second % 60) ++
      fractionText (nanos % 1000000000) ++ ['Z']),
    .time, nanos⟩

end Timestamp

end PocketSql
