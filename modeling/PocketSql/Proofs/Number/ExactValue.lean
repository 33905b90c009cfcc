/-
  The numbers that floating-point numbers stand for.

  * `unitsOf_strictMono`: a larger magnitude stands for a larger number;
  * `Binary64.toRat`: the number that a finite one stands for; `Binary64.eq_of_toRat_eq`: apart from
    the two zeros, no two stand for the same one;
  * `nearestMagnitude_of_unitsOf`: a natural number is rounded to a magnitude that stands for it;
  * `Binary64.whole?_eq_some_iff`: which numbers are whole; `Binary64.ordinal_of_whole?`: where they
    stand among all numbers.
-/
import Mathlib.Algebra.Order.Field.Rat
import Mathlib.Data.Int.Cast.Lemmas
import PocketSql.Proofs.Number.Rounding

namespace PocketSql

/-! ## Magnitudes -/

theorem unitsOf_of_lt {m : Nat} (h : m < fractionCount) : unitsOf m = m :=
  if_pos h

theorem unitsOf_of_le {m : Nat} (h : fractionCount ≤ m) :
    unitsOf m = (fractionCount + m % fractionCount) * twoPow (m / fractionCount - 1) :=
  if_neg (Nat.not_lt.2 h)

theorem le_unitsOf {m : Nat} (h : fractionCount ≤ m) : fractionCount ≤ unitsOf m := by
  rw [unitsOf_of_le h]
  exact Nat.le_trans (Nat.le_add_right _ _) (Nat.le_mul_of_pos_right _ (twoPow_pos _))

/-- Of two magnitudes with the same exponent the fractions decide; a larger exponent outweighs every
    fraction. -/
theorem unitsOf_lt_of_le {m n : Nat} (hm : fractionCount ≤ m) (h : m < n) :
    unitsOf m < unitsOf n := by
  have hpos : 0 < fractionCount := by decide
  rw [unitsOf_of_le hm, unitsOf_of_le (Nat.le_trans hm (Nat.le_of_lt h))]
  have hexponent : 1 ≤ m / fractionCount := (Nat.one_le_div_iff hpos).2 hm
  rcases Nat.lt_or_eq_of_le (Nat.div_le_div_right (c := fractionCount) (Nat.le_of_lt h))
    with hlt | heq
  · have hfraction : m % fractionCount < fractionCount := Nat.mod_lt _ hpos
    calc (fractionCount + m % fractionCount) * twoPow (m / fractionCount - 1)
        < 2 * fractionCount * twoPow (m / fractionCount - 1) :=
          Nat.mul_lt_mul_of_pos_right (by omega) (twoPow_pos _)
      _ = fractionCount * twoPow (1 + (m / fractionCount - 1)) := by
          rw [twoPow_add, Nat.mul_comm 2, Nat.mul_assoc]
          rfl
      _ ≤ fractionCount * twoPow (n / fractionCount - 1) :=
          Nat.mul_le_mul_left _ (twoPow_le (by omega))
      _ ≤ (fractionCount + n % fractionCount) * twoPow (n / fractionCount - 1) :=
          Nat.mul_le_mul_right _ (Nat.le_add_right _ _)
  · have hfraction : m % fractionCount < n % fractionCount := by
      have hsum := Nat.div_add_mod m fractionCount
      have hsum' := Nat.div_add_mod n fractionCount
      rw [heq] at hsum
      omega
    rw [heq]
    exact Nat.mul_lt_mul_of_pos_right (Nat.add_lt_add_left hfraction _) (twoPow_pos _)

/-- **A larger magnitude stands for a larger number.** -/
theorem unitsOf_strictMono : StrictMono unitsOf := by
  intro m n h
  rcases Nat.lt_or_ge m fractionCount with hm | hm
  · rw [unitsOf_of_lt hm]
    rcases Nat.lt_or_ge n fractionCount with hn | hn
    · rwa [unitsOf_of_lt hn]
    · exact Nat.lt_of_lt_of_le hm (le_unitsOf hn)
  · exact unitsOf_lt_of_le hm h

/-- A natural number that a magnitude stands for is rounded to this magnitude. -/
theorem nearestMagnitude_of_unitsOf {m n : Nat} (hm : m < infinityMagnitude)
    (h : unitsOf m = n * unitsInOne) : nearestMagnitude n 1 = m := by
  rcases Nat.eq_zero_or_pos n with rfl | hpos
  · have hzero : unitsOf 0 = unitsOf m := by rw [h, Nat.zero_mul]; rfl
    rw [nearestMagnitude_zero, unitsOf_strictMono.injective hzero]
  · have hcount : 0 < fractionCount := by decide
    have hinf : infinityMagnitude = 2047 * fractionCount := by decide
    have hone : fractionCount ≤ unitsInOne := by
      rw [fractionCount_eq_twoPow]
      exact twoPow_le (by omega)
    have hnormal : fractionCount ≤ m := by
      by_contra hlt
      rw [unitsOf_of_lt (by omega)] at h
      have hle := Nat.mul_le_mul_right unitsInOne hpos
      omega
    have hexponent : m / fractionCount < 2047 := (Nat.div_lt_iff_lt_mul hcount).2 (hinf ▸ hm)
    have hfraction := Nat.mod_lt m hcount
    rw [unitsOf_of_le hnormal] at h
    rw [nearestMagnitude_of_place (Nat.le_add_right _ _) (by omega) (by omega) h.symm]
    -- the exponent of a normal number is one more than its place
    have hplace : (m / fractionCount - 1) * fractionCount + fractionCount =
        m / fractionCount * fractionCount := by
      rw [← Nat.succ_mul, Nat.succ_eq_add_one,
        Nat.sub_add_cancel ((Nat.one_le_div_iff hcount).2 hnormal)]
    have hsplit := Nat.div_add_mod' m fractionCount
    omega

/-! ## Numbers -/

namespace Binary64

variable {x y : Binary64} {n : Int}

/-- A finite number in units of 2^-1074. -/
def signedUnits (x : Binary64) : Int :=
  if x.negative then -(x.units : Int) else x.units

/-- The number that a finite one stands for. -/
def toRat (x : Binary64) : ℚ :=
  x.signedUnits / unitsInOne

theorem unitsInOne_pos : 0 < unitsInOne := twoPow_pos 1074

theorem toRat_eq_toRat_iff : x.toRat = y.toRat ↔ x.signedUnits = y.signedUnits := by
  have hone : (unitsInOne : ℚ) ≠ 0 := Nat.cast_ne_zero.2 (Nat.ne_of_gt unitsInOne_pos)
  rw [toRat, toRat, div_left_inj' hone, Int.cast_inj]

theorem toRat_eq_intCast_iff : x.toRat = (n : ℚ) ↔ x.signedUnits = n * unitsInOne := by
  have hone : (unitsInOne : ℚ) ≠ 0 := Nat.cast_ne_zero.2 (Nat.ne_of_gt unitsInOne_pos)
  rw [toRat, div_eq_iff hone]
  exact_mod_cast Iff.rfl

/-- Two floating-point numbers that stand for the same number, other than zero, are the same. -/
theorem eq_of_toRat_eq (h : x.toRat = y.toRat) (hx : x.toRat ≠ 0) : x = y := by
  obtain ⟨negative, magnitude, _⟩ := x
  obtain ⟨negative', magnitude', _⟩ := y
  have hsigned := toRat_eq_toRat_iff.1 h
  have hne : unitsOf magnitude ≠ 0 := by
    intro hzero
    have hunits : signedUnits ⟨negative, magnitude, ‹_›⟩ = 0 := by
      simp [signedUnits, units, hzero]
    exact hx (by rw [toRat, hunits, Int.cast_zero, zero_div])
  have hsign : negative = negative' ∧ unitsOf magnitude = unitsOf magnitude' := by
    cases negative <;> cases negative' <;>
      simp only [signedUnits, units, if_true, if_false, Bool.false_eq_true] at hsigned
    · exact ⟨rfl, by omega⟩
    · omega
    · omega
    · exact ⟨rfl, by omega⟩
  rw [mk.injEq]
  exact ⟨hsign.1, unitsOf_strictMono.injective hsign.2⟩

theorem whole?_eq_some_iff (hx : x.isFinite = true) : x.whole? = some n ↔ x.toRat = n := by
  rw [toRat_eq_intCast_iff, whole?, hx, Bool.true_and]
  have hone := unitsInOne_pos
  by_cases hdvd : x.units % unitsInOne = 0
  · -- the quotient is exact, so that the whole number is the signed quotient
    have hunits : (x.units : Int) = (x.units / unitsInOne : Nat) * unitsInOne := by
      exact_mod_cast (Nat.div_mul_cancel (Nat.dvd_of_mod_eq_zero hdvd)).symm
    have hcancel : ∀ a b : Int, a * unitsInOne = b * unitsInOne ↔ a = b := fun a b =>
      Int.mul_eq_mul_right_iff (by omega)
    rw [if_pos (by simpa using hdvd), Option.some.injEq, signedUnits, hunits]
    split
    · rw [← Int.neg_mul, hcancel]
    · rw [hcancel]
  · rw [if_neg (by simpa using hdvd)]
    refine iff_of_false (nomatch ·) fun hsigned => hdvd ?_
    have hdvd' : unitsInOne ∣ x.signedUnits.natAbs := by
      rw [hsigned, Int.natAbs_mul, Int.natAbs_natCast]
      exact Nat.dvd_mul_left _ _
    have hunits : x.signedUnits.natAbs = x.units := by
      rw [signedUnits]
      split <;> omega
    exact Nat.mod_eq_zero_of_dvd (hunits ▸ hdvd')

/-- A whole number stands where the integer that it is equal to does. -/
theorem ordinal_of_whole? (h : x.whole? = some n) :
    x.isFinite = true ∧ x.ordinal = (ofInt n).ordinal := by
  unfold whole? at h
  split at h
  · next hwhole =>
    obtain ⟨hfinite, hdvd⟩ := Bool.and_eq_true_iff.1 hwhole
    have hunits : x.units / unitsInOne * unitsInOne = x.units :=
      Nat.div_mul_cancel (Nat.dvd_of_mod_eq_zero (by simpa using hdvd))
    have hn := Option.some.inj h
    generalize x.units / unitsInOne = quotient at hunits hn
    have habs : n.natAbs = quotient := by
      rw [← hn]
      split <;> omega
    have hmagnitude := nearestMagnitude_of_unitsOf (of_decide_eq_true hfinite)
      (habs ▸ hunits.symm)
    refine ⟨hfinite, ?_⟩
    rw [ordinal_ofInt, hmagnitude, ordinal]
    by_cases hzero : n = 0
    · -- both zeros stand at 0
      rw [hzero, Int.natAbs_zero, nearestMagnitude_zero] at hmagnitude
      rw [← hmagnitude]
      simp
    · by_cases hneg : x.negative = true
      · rw [if_pos hneg] at hn ⊢
        rw [if_pos (by omega)]
      · rw [if_neg hneg] at hn ⊢
        rw [if_neg (by omega)]
  · cases h

end Binary64

end PocketSql
