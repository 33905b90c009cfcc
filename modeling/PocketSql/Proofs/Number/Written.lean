/-
  Whole numbers read back from the digits that write them.

  * `toList_toString_nat`, `toList_toString_int`: how numbers are written;
  * `readCount_toString`: a count that fits in 64 bits;
  * `readInt64_toString`: an integer, the lowest one included.
-/
import PocketSql.Number.Integer

namespace PocketSql

theorem toList_toString_nat (n : Nat) : (toString n).toList = Nat.toDigits 10 n := by
  rw [Nat.toString_eq_ofList_toDigits, String.toList_ofList]

theorem isDigit_of_mem_toDigits {n : Nat} {c : Char} (h : c ∈ Nat.toDigits 10 n) :
    c.isDigit = true :=
  Nat.isDigit_of_mem_toDigits (by decide) (by decide) h

theorem digitsValue_eq (cs : List Char) : digitsValue cs = Nat.ofDigitChars 10 cs 0 := by
  rw [Nat.ofDigitChars_eq_foldl]
  rfl

theorem digitsValue_toDigits (n : Nat) : digitsValue (Nat.toDigits 10 n) = n := by
  rw [digitsValue_eq, Nat.ofDigitChars_ten_toDigits]

theorem readDigits_eq {digits : List Char} (hne : digits ≠ [])
    (hdigits : ∀ c ∈ digits, c.isDigit = true) :
    readDigits digits = some (Nat.ofDigitChars 10 digits 0) := by
  rw [readDigits, if_neg (by simpa using hne), if_pos (List.all_eq_true.2 hdigits),
    digitsValue_eq]

theorem readDigits_toDigits (n : Nat) : readDigits (Nat.toDigits 10 n) = some n := by
  rw [readDigits_eq Nat.toDigits_ne_nil fun _ => isDigit_of_mem_toDigits,
    Nat.ofDigitChars_ten_toDigits]

theorem readCount_toString {n : Nat} (h : n < unsignedLimit) :
    readCount (toString n).toList = some n := by
  simp [readCount, readDigits_toDigits, h]

/-- An integer is written by the digits of its absolute value, after a minus if it is negative. -/
theorem toList_toString_int (i : Int) :
    (toString i).toList =
      if i < 0 then '-' :: Nat.toDigits 10 i.natAbs else Nat.toDigits 10 i.natAbs := by
  cases i with
  | ofNat n => exact (toList_toString_nat n).trans (by simp)
  | negSucc n =>
    have hwritten : toString (Int.negSucc n) = "-" ++ toString (n + 1) := rfl
    rw [hwritten, String.toList_append, toList_toString_nat]
    simp

theorem fitsInt64_toInt (i : Int64) : fitsInt64 i.toInt = true := by
  have hlow := i.le_toInt
  have hhigh := i.toInt_lt
  have hlimit : signedLimit = 9223372036854775808 := rfl
  rw [fitsInt64, hlimit, Bool.and_eq_true, decide_eq_true_iff, decide_eq_true_iff]
  omega

theorem splitSign_toDigits (n : Nat) :
    splitSign (Nat.toDigits 10 n) = (false, Nat.toDigits 10 n) := by
  unfold splitSign
  split
  · next rest h =>
    have hminus := isDigit_of_mem_toDigits (n := n) (c := '-') (by simp [h])
    cases hminus
  · next rest h =>
    have hplus := isDigit_of_mem_toDigits (n := n) (c := '+') (by simp [h])
    cases hplus
  · rfl

/-- Every integer is read back, also the lowest one, whose digits alone do not fit. -/
theorem readInt64_toString (i : Int64) : readInt64 (toString i.toInt).toList = some i := by
  rw [toList_toString_int]
  split
  · next hneg =>
    have habs : -(i.toInt.natAbs : Int) = i.toInt := by omega
    simp only [readInt64, splitSign, readDigits_toDigits, if_true, habs]
    simp [fitsInt64_toInt]
  · next hpos =>
    have habs : (i.toInt.natAbs : Int) = i.toInt := by omega
    simp only [readInt64, splitSign_toDigits, readDigits_toDigits, Bool.false_eq_true, if_false,
      habs]
    simp [fitsInt64_toInt]

end PocketSql
