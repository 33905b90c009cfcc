/-
  Binary floating-point numbers of 64 bits (IEEE 754).

  * `Binary64` is a sign and a *magnitude*: the 63 bits of exponent and fraction read as one
    number.  Magnitudes grow with the numbers they stand for, so order needs no arithmetic:
    `compare?` compares `ordinal`s.
  * `units` is the exact absolute value of a finite number, counted in units of the smallest positive
    number, 2^-1074.
  * `ofRatio` rounds a quotient of natural numbers to the nearest number, a tie going to the even
    magnitude.
  * `whole?` is the exact value of a finite number without a fractional part.
-/
import PocketSql.Number.Integer

namespace PocketSql

/-- 2^52, the number of fractions that an exponent has. -/
def fractionCount : Nat := 0x10000000000000

/-- The magnitude of the infinities; every larger one is not a number. -/
def infinityMagnitude : Nat := 0x7FF0000000000000

/-- How many units of 2^-1074 are equal to 1. -/
def unitsInOne : Nat := twoPow 1074

/-- A binary floating-point number of 64 bits. -/
structure Binary64 where
  /-- The sign bit. -/
  negative : Bool
  /-- The other 63 bits. -/
  magnitude : Nat
  magnitude_lt : magnitude < signedLimit
deriving DecidableEq

/-- How many units of 2^-1074 a finite magnitude stands for. -/
def unitsOf (magnitude : Nat) : Nat :=
  if magnitude < fractionCount then magnitude
  else
    (fractionCount + magnitude % fractionCount) * twoPow (magnitude / fractionCount - 1)

/-- A quotient rounded to the nearest natural number, a tie going to the even one. -/
def roundHalfEven (num den : Nat) : Nat :=
  let q := num / den
  let r := num % den
  if 2 * r < den then q else if den < 2 * r then q + 1 else q + q % 2

/-- The magnitude nearest to a quotient.  With 53 bits kept, a quotient of `q` units is rounded at
    the place `log2 q - 52`; a number of fewer bits is rounded at the units. -/
def nearestMagnitude (num den : Nat) : Nat :=
  let scaled := num * unitsInOne
  let place := Nat.log2 (scaled / den) - 52
  min infinityMagnitude (roundHalfEven scaled (den * twoPow place) + place * fractionCount)

theorem infinityMagnitude_lt : infinityMagnitude < signedLimit := by decide

theorem nearestMagnitude_lt (num den : Nat) : nearestMagnitude num den < signedLimit :=
  Nat.lt_of_le_of_lt (Nat.min_le_left _ _) infinityMagnitude_lt

namespace Binary64

/-! ## Construction -/

/-- Zero, with a sign. -/
def zero (negative : Bool) : Binary64 :=
  ⟨negative, 0, by decide⟩

/-- Infinity, with a sign. -/
def infinity (negative : Bool) : Binary64 :=
  ⟨negative, infinityMagnitude, infinityMagnitude_lt⟩

/-- The quiet value that is not a number, with a sign. -/
def nan (negative : Bool) : Binary64 :=
  ⟨negative, infinityMagnitude + fractionCount / 2, by decide⟩

/-- The number nearest to `num / den`. -/
def ofRatio (negative : Bool) (num den : Nat) : Binary64 :=
  ⟨negative, nearestMagnitude num den, nearestMagnitude_lt num den⟩

/-- The number nearest to an integer. -/
def ofInt (i : Int) : Binary64 :=
  ofRatio (decide (i < 0)) i.natAbs 1

/-- The number nearest to `coefficient * 10 ^ exponent`.  Beyond 10^310 all is infinite, and below
    10^-330 all is zero, whatever the digits are. -/
def ofDecimal (negative : Bool) (coefficient : Nat) (exponent : Int) : Binary64 :=
  if coefficient = 0 then zero negative
  else if 310 < exponent then infinity negative
  else if exponent + coefficient.log2 + 1 < -330 then zero negative
  else ofRatio negative (coefficient * tenPow exponent.toNat) (tenPow (-exponent).toNat)

/-! ## Classes and values -/

/-- Not a number. -/
def isNaN (x : Binary64) : Bool :=
  decide (infinityMagnitude < x.magnitude)

/-- Neither infinite nor undefined. -/
def isFinite (x : Binary64) : Bool :=
  decide (x.magnitude < infinityMagnitude)

/-- The absolute value of a finite number, in units of 2^-1074. -/
def units (x : Binary64) : Nat :=
  unitsOf x.magnitude

/-- The integer that a number is equal to, if it has no fractional part. -/
def whole? (x : Binary64) : Option Int :=
  if x.isFinite && x.units % unitsInOne == 0 then
    let n : Int := (x.units / unitsInOne : Nat)
    some (if x.negative then -n else n)
  else none

/-- The 64 bits as a natural number. -/
def bits (x : Binary64) : Nat :=
  if x.negative then signedLimit + x.magnitude else x.magnitude

/-! ## Order -/

/-- The place of a number in the order of all numbers; both zeros are at 0. -/
def ordinal (x : Binary64) : Int :=
  if x.negative then -(x.magnitude : Int) else x.magnitude

/-- The order of two numbers; there is none if one of them is not a number. -/
def compare? (x y : Binary64) : Option Ordering :=
  if x.isNaN || y.isNaN then none else some (compare x.ordinal y.ordinal)

/-- Numerical equality: both zeros are equal, and what is not a number equals nothing. -/
def equals (x y : Binary64) : Bool :=
  x.compare? y == some .eq

end Binary64

end PocketSql
