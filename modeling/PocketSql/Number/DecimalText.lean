/-
  Floating-point numbers as text.

  `readBinary64` takes an optional sign and then one of
  * `inf`, `infinity` or `nan`, in any case;
  * digits with at most one point among, before or after them, at least one digit in all, and an
    optional exponent: `e` or `E`, an optional sign, at least one digit.
  The digits are read exactly and rounded once.

  Numbers are written in two styles, both with the fewest digits that read back:
  * `DecimalStyle.display`, for messages and text comparison, writes every number positionally and
    a whole number without a point;
  * `DecimalStyle.json` writes a whole number with `.0`, and numbers below 10^-5 or from 10^16 on
    with an exponent.
-/
import PocketSql.Number.Shortest
import PocketSql.Text.Basic

namespace PocketSql

/-! ## Reading -/

/-- An exponent at the end of a number: absent, or a mark, an optional sign and digits. -/
def readExponent : List Char → Option Int
  | [] => some 0
  | mark :: rest =>
    if mark = 'e' || mark = 'E' then
      match splitSign rest with
      | (negative, digits) =>
        (readDigits digits).map fun n => if negative then -(n : Int) else n
    else none

/-- The digits after a point and what follows them; without a point there are none. -/
def splitFraction : List Char → List Char × List Char
  | '.' :: rest => rest.span Char.isDigit
  | cs => ([], cs)

/-- Digits with an optional point and an optional exponent, rounded to the nearest number. -/
def readUnsigned (negative : Bool) (cs : List Char) : Option Binary64 :=
  match cs.span Char.isDigit with
  | (whole, afterWhole) =>
    match splitFraction afterWhole with
    | (fraction, afterFraction) =>
      if (whole ++ fraction).isEmpty then none
      else
        (readExponent afterFraction).map fun e =>
          Binary64.ofDecimal negative (digitsValue (whole ++ fraction)) (e - fraction.length)

/-- A floating-point number in text. -/
def readBinary64 (cs : List Char) : Option Binary64 :=
  match splitSign cs with
  | (negative, rest) =>
    let name := lowerText rest
    if name = "inf".toList || name = "infinity".toList then some (.infinity negative)
    else if name = "nan".toList then some (.nan negative)
    else readUnsigned negative rest

/-! ## Writing -/

/-- The choices that a way of writing numbers makes. -/
structure DecimalStyle where
  /-- The places of the first digit for which a number is written positionally. -/
  positional : Int → Bool
  /-- What follows the digits of a whole number written positionally. -/
  wholeEnding : List Char
  /-- Which of two equally near shortest decimals is written. -/
  tie : TieRule

/-- Every number is written positionally, a whole number without a point. -/
def DecimalStyle.display : DecimalStyle :=
  ⟨fun _ => true, [], .up⟩

/-- Numbers from 10^-5 to below 10^16 are written positionally, always with a point. -/
def DecimalStyle.json : DecimalStyle :=
  ⟨fun place => decide (-5 ≤ place) && decide (place ≤ 15), ".0".toList, .even⟩

namespace Significand

/-- Digits with a point where it belongs; zeros fill the places between. -/
def positionalText (ending : List Char) (s : Significand) : List Char :=
  if s.place < 0 then
    "0.".toList ++ List.replicate (-s.place - 1).toNat '0' ++ s.digits
  else
    let size := s.place.toNat + 1
    if s.digits.length ≤ size then
      s.digits ++ List.replicate (size - s.digits.length) '0' ++ ending
    else s.digits.take size ++ '.' :: s.digits.drop size

/-- One digit before the point and a signed exponent. -/
def exponentText (s : Significand) : List Char :=
  let tail := s.digits.drop 1
  s.digits.take 1 ++ (if tail.isEmpty then [] else '.' :: tail) ++ 'e' ::
    (if s.place < 0 then '-' else '+') :: Nat.toDigits 10 s.place.natAbs

/-- Digits and point in a style. -/
def text (style : DecimalStyle) (s : Significand) : List Char :=
  if style.positional s.place then s.positionalText style.wholeEnding else s.exponentText

end Significand

namespace Binary64

/-- A number in a style; what is not finite has a name. -/
def text (style : DecimalStyle) (x : Binary64) : String :=
  if x.isNaN then "NaN"
  else
    let size := if x.isFinite then (shortest style.tie x.magnitude).text style else "inf".toList
    String.ofList (if x.negative then '-' :: size else size)

/-- A number as it is shown. -/
def display (x : Binary64) : String :=
  x.text .display

/-- A finite number as it is written in JSON. -/
def jsonText (x : Binary64) : String :=
  x.text .json

end Binary64

end PocketSql
