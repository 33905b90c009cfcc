/-
  Powers, and whole numbers as text.

  * `twoPow` and `tenPow` are powers, `signedLimit` and `unsignedLimit` the bounds of integers of 64
    bits;
  * `digitsValue` is the number that decimal digits spell;
  * `readInt64` takes an optional sign and digits whose number fits in 64 bits with a sign;
  * `readCount` takes digits whose number fits in 64 bits without one.
-/
namespace PocketSql

/-! ## Powers -/

/-- A power of two. -/
def twoPow (n : Nat) : Nat :=
  Nat.pow 2 n

/-- A power of ten. -/
def tenPow (n : Nat) : Nat :=
  Nat.pow 10 n

/-- 2^63.  An integer of 64 bits with a sign is at least `-signedLimit` and below `signedLimit`. -/
def signedLimit : Nat := 0x8000000000000000

/-- 2^64.  An integer of 64 bits without a sign is below it. -/
def unsignedLimit : Nat := 0x10000000000000000

/-! ## Digits -/

/-- The number that a digit stands for. -/
def digitValue (c : Char) : Nat :=
  c.toNat - '0'.toNat

/-- The number spelled by digits that follow ones which spell `start`. -/
def digitsFrom (start : Nat) (cs : List Char) : Nat :=
  cs.foldl (fun n c => 10 * n + digitValue c) start

/-- The number that digits spell. -/
def digitsValue (cs : List Char) : Nat :=
  digitsFrom 0 cs

/-- One digit or more, read as a number. -/
def readDigits (cs : List Char) : Option Nat :=
  if cs.isEmpty then none else if cs.all Char.isDigit then some (digitsValue cs) else none

/-- An optional sign and what follows it; `true` for a minus. -/
def splitSign : List Char → Bool × List Char
  | '-' :: rest => (true, rest)
  | '+' :: rest => (false, rest)
  | cs => (false, cs)

/-- The numbers that fit in 64 bits with a sign. -/
def fitsInt64 (i : Int) : Bool :=
  decide (-(signedLimit : Int) ≤ i) && decide (i < signedLimit)

/-- A whole number in text, if it fits in 64 bits with a sign. -/
def readInt64 (cs : List Char) : Option Int64 :=
  match splitSign cs with
  | (negative, digits) =>
    match readDigits digits with
    | none => none
    | some n =>
      let i : Int := if negative then -(n : Int) else n
      if fitsInt64 i then some (Int64.ofInt i) else none

/-- A count in text, if it fits in 64 bits without a sign. -/
def readCount (cs : List Char) : Option Nat :=
  match readDigits cs with
  | none => none
  | some n => if n < unsignedLimit then some n else none

end PocketSql
