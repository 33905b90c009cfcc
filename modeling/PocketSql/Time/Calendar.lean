/-
  The proleptic Gregorian calendar, with a year zero.

  * `daysBeforeYear` and `daysBeforeMonth` count days, `epochDay` numbers the days from 1970-01-01;
  * `CivilDate.ofEpochDay` finds the date of a day number.
-/
namespace PocketSql

/-- A leap year: divisible by 4, and if by 100 then by 400. -/
def isLeapYear (year : Int) : Bool :=
  year % 4 == 0 && (year % 100 != 0 || year % 400 == 0)

/-- The number of days of a month, counted from 1; there are none outside of 1 to 12. -/
def monthLength (year : Int) : Nat → Nat
  | 1 | 3 | 5 | 7 | 8 | 10 | 12 => 31
  | 4 | 6 | 9 | 11 => 30
  | 2 => if isLeapYear year then 29 else 28
  | _ => 0

/-- The days of a year before a month. -/
def daysBeforeMonth (year : Int) : Nat → Nat
  | 0 => 0
  | month + 1 => daysBeforeMonth year month + monthLength year month

/-- The days from 0001-01-01 to the first day of a year. -/
def daysBeforeYear (year : Int) : Int :=
  365 * (year - 1) + (year - 1) / 4 - (year - 1) / 100 + (year - 1) / 400

/-- The days from 0001-01-01 to 1970-01-01. -/
def epochOffset : Int := 719162

/-- A day of the calendar. -/
structure CivilDate where
  year : Int
  month : Nat
  day : Nat
deriving DecidableEq, Repr

namespace CivilDate

/-- Month and day exist. -/
def isValid (d : CivilDate) : Bool :=
  decide (1 ≤ d.month) && decide (d.month ≤ 12) && decide (1 ≤ d.day) &&
    decide (d.day ≤ monthLength d.year d.month)

/-- The number of a day, 1970-01-01 being day 0. -/
def epochDay (d : CivilDate) : Int :=
  daysBeforeYear d.year + daysBeforeMonth d.year d.month + d.day - 1 - epochOffset

/-- The month and day that lie `rest` days after the first of a month, going on over at most
    `months` further months. -/
def withinYear (year : Int) : Nat → Nat → Nat → CivilDate
  | 0, month, rest => ⟨year, month, rest + 1⟩
  | months + 1, month, rest =>
    if rest < monthLength year month then ⟨year, month, rest + 1⟩
    else withinYear year months (month + 1) (rest - monthLength year month)

/-- The date of a day number.  A year is at most 366 days long, so the year found by dividing is
    right or one too small. -/
def ofEpochDay (day : Int) : CivilDate :=
  let days := day + epochOffset
  let guess := (400 * days) / 146097 + 1
  let year :=
    if days < daysBeforeYear guess then guess - 1
    else if daysBeforeYear (guess + 1) ≤ days then guess + 1
    else guess
  withinYear year 11 1 (days - daysBeforeYear year).toNat

end CivilDate

end PocketSql
