/-
  The shortest decimal that reads back as a given floating-point number.

  The decimals that round to a number of magnitude `m` lie between the midpoints to its two
  neighbours, `lowerEnd m` and `upperEnd m`, the ends included when `m` is even.  On the grid of
  the multiples of 10^k the number has two neighbours; `shortestFrom` goes from coarse grids to fine
  ones and stops at the first with a neighbour in the interval.  Of two such neighbours the nearer
  one is taken, and of two equally near ones `TieRule` says which.
-/
import PocketSql.Number.Binary64

namespace PocketSql

/-- Which of two equally near decimals is taken. -/
inductive TieRule
  /-- The one with the even last digit. -/
  | even
  /-- The larger one. -/
  | up
deriving DecidableEq, Repr

/-- The digits of a decimal and the power of ten at which the first one stands. -/
structure Significand where
  digits : List Char
  place : Int
deriving DecidableEq, Repr

/-! ## The interval, in half units -/

/-- The midpoint to the next smaller number. -/
def lowerEnd (magnitude : Nat) : Nat :=
  unitsOf (magnitude - 1) + unitsOf magnitude

/-- The midpoint to the next larger number. -/
def upperEnd (magnitude : Nat) : Nat :=
  unitsOf magnitude + unitsOf (magnitude + 1)

/-! ## The grid of the multiples of 10^k

A point `d * 10^k` and an amount `u` of half units are compared as `d * gridStep k` and
`u * unitStep k`. -/

/-- The weight of a grid point. -/
def gridStep (k : Int) : Nat :=
  2 * unitsInOne * tenPow k.toNat

/-- The weight of half a unit. -/
def unitStep (k : Int) : Nat :=
  tenPow (-k).toNat

/-- The decimal `d * 10^k` reads back as the number of the given magnitude. -/
def readsBack (magnitude d : Nat) (k : Int) : Bool :=
  let low := lowerEnd magnitude * unitStep k
  let high := upperEnd magnitude * unitStep k
  let point := d * gridStep k
  if magnitude % 2 = 0 then decide (low ≤ point) && decide (point ≤ high)
  else decide (low < point) && decide (point < high)

/-- The larger or smaller of the two grid neighbours `d` and `d + 1`, whichever is nearer. -/
def nearer (tie : TieRule) (magnitude d : Nat) (k : Int) : Nat :=
  let number := 4 * unitsOf magnitude * unitStep k
  let middle := (2 * d + 1) * gridStep k
  if number < middle then d
  else if middle < number then d + 1
  else match tie with
    | .even => d + d % 2
    | .up => d + 1

/-- The neighbour of a number on a grid that reads back, the nearer one of two. -/
def onGrid (tie : TieRule) (magnitude : Nat) (k : Int) : Option Nat :=
  let d := 2 * unitsOf magnitude * unitStep k / gridStep k
  match readsBack magnitude d k, readsBack magnitude (d + 1) k with
  | true, true => some (nearer tie magnitude d k)
  | true, false => some d
  | false, true => some (d + 1)
  | false, false => none

/-- The first hit on a sequence of grids, each ten times finer than the one before. -/
def shortestFrom (tie : TieRule) (magnitude : Nat) : Nat → Int → Nat × Int
  | 0, k => (2 * unitsOf magnitude * unitStep k / gridStep k, k)
  | tries + 1, k =>
    match onGrid tie magnitude k with
    | some d => (d, k)
    | none => shortestFrom tie magnitude tries (k - 1)

/-- The power of ten at which the first digit of a positive number stands. -/
def leadingPlace (magnitude : Nat) : Int :=
  ((Nat.toDigits 10 (unitsOf magnitude * tenPow 324 / unitsInOne)).length : Int) - 325

/-- Digits without the zeros at their end; one digit stays. -/
def dropFinalZeros (digits : List Char) : List Char :=
  match (digits.reverse.dropWhile (· = '0')).reverse with
  | [] => ['0']
  | kept => kept

/-- The shortest decimal that reads back as the number of a finite magnitude; seventeen digits are
    enough. -/
def shortest (tie : TieRule) (magnitude : Nat) : Significand :=
  if magnitude = 0 then ⟨['0'], 0⟩
  else
    match shortestFrom tie magnitude 17 (leadingPlace magnitude) with
    | (d, k) =>
      let digits := Nat.toDigits 10 d
      ⟨dropFinalZeros digits, k + digits.length - 1⟩

end PocketSql
