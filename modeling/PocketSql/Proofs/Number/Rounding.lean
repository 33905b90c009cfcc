/-
  Rounding integers to binary floating-point numbers.

  * `roundHalfEven_mono`, `nearestMagnitude_mono`: rounding keeps the order;
  * `unitsOf_nearestMagnitude`: a natural number up to 2^53 is rounded to a number equal to it;
  * `Binary64.compare?_ofInt_lt`, `Binary64.compare?_ofInt_gt`, `Binary64.compare?_ofInt_eq`: the
    rounded numbers compare as the integers do, unless they fall together;
  * `Binary64.ofInt_eq_iff`: no other integer falls together with one of absolute value below 2^53.
-/
import Mathlib.Data.Nat.Log
import PocketSql.Number.Binary64

namespace PocketSql

/-! ## Powers of two -/

theorem twoPow_pos (n : Nat) : 0 < twoPow n :=
  Nat.two_pow_pos n

theorem twoPow_add (m n : Nat) : twoPow (m + n) = twoPow m * twoPow n :=
  Nat.pow_add 2 m n

theorem twoPow_le {m n : Nat} (h : m ≤ n) : twoPow m ≤ twoPow n :=
  Nat.pow_le_pow_right (by decide) h

theorem fractionCount_eq_twoPow : fractionCount = twoPow 52 := by decide

theorem two_mul_fractionCount : 2 * fractionCount = twoPow 53 := by decide

/-- The place at which a quotient is rounded: 53 bits stay before it. -/
theorem lt_twoPow_place (q : Nat) : q < 2 * fractionCount * twoPow (q.log2 - 52) := by
  rw [two_mul_fractionCount, ← twoPow_add]
  have hbits : q < twoPow (q.log2 + 1) := Nat.lt_log2_self
  exact Nat.lt_of_lt_of_le hbits (twoPow_le (by omega))

theorem twoPow_place_le {q : Nat} (h : 0 < q.log2 - 52) :
    fractionCount * twoPow (q.log2 - 52) ≤ q := by
  have hq : q ≠ 0 := by rintro rfl; simp at h
  have hbits : twoPow q.log2 ≤ q := Nat.log2_self_le hq
  rwa [fractionCount_eq_twoPow, ← twoPow_add, Nat.add_sub_cancel' (by omega)]

/-! ## Rounding to the nearest natural number -/

section
variable {m n den q : Nat}

theorem div_le_roundHalfEven (n den : Nat) : n / den ≤ roundHalfEven n den := by
  simp only [roundHalfEven]
  split
  · exact Nat.le_refl _
  · split <;> omega

theorem roundHalfEven_le_div_add_one (n den : Nat) : roundHalfEven n den ≤ n / den + 1 := by
  simp only [roundHalfEven]
  split
  · omega
  · split <;> omega

theorem le_roundHalfEven (hden : 0 < den) (h : q * den ≤ n) : q ≤ roundHalfEven n den :=
  Nat.le_trans ((Nat.le_div_iff_mul_le hden).2 h) (div_le_roundHalfEven n den)

theorem roundHalfEven_mul (hden : 0 < den) (q : Nat) : roundHalfEven (q * den) den = q := by
  simp [roundHalfEven, Nat.mul_div_cancel q hden, hden]

theorem roundHalfEven_mono (h : m ≤ n) : roundHalfEven m den ≤ roundHalfEven n den := by
  have hdiv : m / den ≤ n / den := Nat.div_le_div_right h
  rcases Nat.lt_or_eq_of_le hdiv with hlt | heq
  · calc roundHalfEven m den ≤ m / den + 1 := roundHalfEven_le_div_add_one m den
      _ ≤ n / den := hlt
      _ ≤ roundHalfEven n den := div_le_roundHalfEven n den
  · have hmod : m % den ≤ n % den := by
      have hm := Nat.div_add_mod m den
      have hn := Nat.div_add_mod n den
      rw [heq] at hm
      omega
    simp only [roundHalfEven, heq]
    split_ifs <;> omega

theorem roundHalfEven_le (hden : 0 < den) (h : n ≤ q * den) : roundHalfEven n den ≤ q := by
  rw [← roundHalfEven_mul hden q]
  exact roundHalfEven_mono h

end

/-! ## Rounding to the nearest number -/

/-- Before the place of a quotient stand at most 53 bits, ... -/
theorem roundHalfEven_place_le {x den : Nat} (hden : 0 < den) :
    roundHalfEven x (den * twoPow ((x / den).log2 - 52)) ≤ 2 * fractionCount := by
  refine roundHalfEven_le (Nat.mul_pos hden (twoPow_pos _)) ?_
  have hq := (Nat.div_lt_iff_lt_mul hden).1 (lt_twoPow_place (x / den))
  rw [Nat.mul_assoc, Nat.mul_comm (twoPow _)] at hq
  exact Nat.le_of_lt hq

/-- ... and no fewer if the place is not the lowest one. -/
theorem le_roundHalfEven_place {x den : Nat} (hden : 0 < den) (h : 0 < (x / den).log2 - 52) :
    fractionCount ≤ roundHalfEven x (den * twoPow ((x / den).log2 - 52)) := by
  refine le_roundHalfEven (Nat.mul_pos hden (twoPow_pos _)) ?_
  have hq := (Nat.le_div_iff_mul_le hden).1 (twoPow_place_le h)
  rwa [Nat.mul_assoc, Nat.mul_comm (twoPow _)] at hq

/-- Where the place grows by one, the highest number of the lower place meets the lowest number of
    the higher one. -/
theorem nearestMagnitude_mono {m n den : Nat} (hden : 0 < den) (h : m ≤ n) :
    nearestMagnitude m den ≤ nearestMagnitude n den := by
  simp only [nearestMagnitude]
  generalize hx : m * unitsInOne = x
  generalize hy : n * unitsInOne = y
  have hxy : x ≤ y := by rw [← hx, ← hy]; exact Nat.mul_le_mul_right _ h
  have hplace : (x / den).log2 - 52 ≤ (y / den).log2 - 52 := by
    rw [Nat.log2_eq_log_two, Nat.log2_eq_log_two]
    exact Nat.sub_le_sub_right (Nat.log_mono_right (Nat.div_le_div_right hxy)) 52
  refine Nat.le_min.2 ⟨Nat.min_le_left _ _, Nat.le_trans (Nat.min_le_right _ _) ?_⟩
  rcases Nat.lt_or_eq_of_le hplace with hlt | heq
  · have hlow := roundHalfEven_place_le (x := x) hden
    have hhigh := le_roundHalfEven_place (x := y) hden (by omega)
    have hstep := Nat.mul_le_mul_right fractionCount hlt
    rw [Nat.succ_mul] at hstep
    omega
  · rw [heq]
    exact Nat.add_le_add_right (roundHalfEven_mono hxy) _

/-! ## Numbers that are kept -/

/-- A number with 53 bits from a place on, the highest place of a finite one being 2045. -/
theorem nearestMagnitude_of_place {n q place : Nat} (hlow : fractionCount ≤ q)
    (hhigh : q < 2 * fractionCount) (hfinite : place ≤ 2045)
    (h : n * unitsInOne = q * twoPow place) :
    nearestMagnitude n 1 = q + place * fractionCount := by
  have hlog : (q * twoPow place).log2 - 52 = place := by
    have hle : twoPow (52 + place) ≤ q * twoPow place := by
      rw [twoPow_add, ← fractionCount_eq_twoPow]
      exact Nat.mul_le_mul_right _ hlow
    have hlt : q * twoPow place < twoPow (52 + place + 1) := by
      rw [show 52 + place + 1 = 53 + place by omega, twoPow_add, ← two_mul_fractionCount]
      exact Nat.mul_lt_mul_of_pos_right hhigh (twoPow_pos place)
    have hne : q * twoPow place ≠ 0 := by
      have := twoPow_pos (52 + place)
      omega
    rw [(Nat.log2_eq_iff hne).2 ⟨hle, hlt⟩]
    omega
  simp only [nearestMagnitude, h, Nat.div_one, hlog, Nat.one_mul, roundHalfEven_mul (twoPow_pos _)]
  have hbound := Nat.mul_le_mul_right fractionCount hfinite
  refine Nat.min_eq_right ?_
  have hcount : fractionCount = 0x10000000000000 := rfl
  have hinf : infinityMagnitude = 0x7FF0000000000000 := rfl
  omega

theorem unitsOf_of_place {q place : Nat} (hlow : fractionCount ≤ q)
    (hhigh : q < 2 * fractionCount) :
    unitsOf (q + place * fractionCount) = q * twoPow place := by
  obtain ⟨f, rfl⟩ := Nat.exists_eq_add_of_le hlow
  have hpos : 0 < fractionCount := by decide
  have hf : f < fractionCount := by omega
  have hsum : fractionCount + f + place * fractionCount = f + (place + 1) * fractionCount := by
    rw [Nat.succ_mul]; omega
  have hnormal : ¬ fractionCount + f + place * fractionCount < fractionCount := by omega
  unfold unitsOf
  rw [if_neg hnormal, hsum, Nat.add_mul_mod_self_right, Nat.add_mul_div_right _ _ hpos,
    Nat.mod_eq_of_lt hf, Nat.div_eq_of_lt hf, Nat.zero_add, Nat.add_sub_cancel]

/-- A natural number up to 2^53 has 53 bits from some place on. -/
theorem exists_place {n : Nat} (hpos : 0 < n) (h : n ≤ twoPow 53) :
    ∃ q place, fractionCount ≤ q ∧ q < 2 * fractionCount ∧ place ≤ 2045 ∧
      n * unitsInOne = q * twoPow place := by
  have hone : unitsInOne = twoPow 1074 := rfl
  rcases Nat.lt_or_eq_of_le h with hlt | rfl
  · have hlog : n.log2 ≤ 52 := Nat.le_of_lt_succ ((Nat.log2_lt (by omega)).2 hlt)
    have hle : twoPow n.log2 ≤ n := Nat.log2_self_le (by omega)
    have hgt : n < twoPow (n.log2 + 1) := Nat.lt_log2_self
    refine ⟨n * twoPow (52 - n.log2), 1022 + n.log2, ?_, ?_, by omega, ?_⟩
    · rw [fractionCount_eq_twoPow, show 52 = n.log2 + (52 - n.log2) by omega, twoPow_add]
      exact Nat.mul_le_mul hle (twoPow_le (by omega))
    · rw [two_mul_fractionCount, show 53 = n.log2 + 1 + (52 - n.log2) by omega, twoPow_add]
      exact Nat.mul_lt_mul_of_pos_right hgt (twoPow_pos _)
    · rw [Nat.mul_assoc, ← twoPow_add, hone, show 52 - n.log2 + (1022 + n.log2) = 1074 by omega]
  · refine ⟨fractionCount, 1075, Nat.le_refl _, by decide, by omega, ?_⟩
    rw [hone, fractionCount_eq_twoPow, ← twoPow_add, ← twoPow_add]

theorem nearestMagnitude_zero (den : Nat) : nearestMagnitude 0 den = 0 := by
  simp [nearestMagnitude, roundHalfEven]

/-- **A natural number up to 2^53 is kept.** -/
theorem unitsOf_nearestMagnitude {n : Nat} (h : n ≤ twoPow 53) :
    unitsOf (nearestMagnitude n 1) = n * unitsInOne := by
  rcases Nat.eq_zero_or_pos n with rfl | hpos
  · rw [nearestMagnitude_zero, Nat.zero_mul]
    rfl
  · obtain ⟨q, place, hlow, hhigh, hfinite, heq⟩ := exists_place hpos h
    rw [nearestMagnitude_of_place hlow hhigh hfinite heq, unitsOf_of_place hlow hhigh, heq]

/-- Nothing else is rounded to the number that is equal to a natural number below 2^53. -/
theorem nearestMagnitude_injective {m n : Nat} (h : n < twoPow 53)
    (heq : nearestMagnitude m 1 = nearestMagnitude n 1) : m = n := by
  have hone : 0 < unitsInOne := twoPow_pos 1074
  have hkept : ∀ k ≤ twoPow 53, nearestMagnitude k 1 = nearestMagnitude n 1 → k = n := by
    intro k hk hkn
    have hunits := unitsOf_nearestMagnitude hk
    rw [hkn, unitsOf_nearestMagnitude (Nat.le_of_lt h)] at hunits
    exact (Nat.eq_of_mul_eq_mul_right hone hunits).symm
  rcases Nat.le_total m (twoPow 53) with hm | hm
  · exact hkept m hm heq
  · -- the number of 2^53 lies between the two, and is another one
    have hlow := nearestMagnitude_mono Nat.one_pos (Nat.le_of_lt h)
    have hhigh := nearestMagnitude_mono Nat.one_pos hm
    have := hkept (twoPow 53) (Nat.le_refl _) (by omega)
    omega

/-! ## Integers -/

namespace Binary64

theorem ordinal_ofInt (i : Int) :
    (ofInt i).ordinal =
      if i < 0 then -(nearestMagnitude i.natAbs 1 : Int) else nearestMagnitude i.natAbs 1 := by
  by_cases h : i < 0 <;> simp [ordinal, ofInt, ofRatio, h]

theorem nearestMagnitude_pos {n : Nat} (h : 0 < n) : 0 < nearestMagnitude n 1 := by
  refine Nat.pos_of_ne_zero fun hzero => ?_
  have := nearestMagnitude_injective (n := 0) (by decide) (by rw [hzero, nearestMagnitude_zero])
  omega

theorem ordinal_ofInt_mono {i j : Int} (h : i ≤ j) : (ofInt i).ordinal ≤ (ofInt j).ordinal := by
  rw [ordinal_ofInt, ordinal_ofInt]
  by_cases hi : i < 0 <;> by_cases hj : j < 0 <;> simp only [hi, hj, if_true, if_false]
  · have := nearestMagnitude_mono Nat.one_pos (show j.natAbs ≤ i.natAbs by omega)
    omega
  · omega
  · omega
  · have := nearestMagnitude_mono Nat.one_pos (show i.natAbs ≤ j.natAbs by omega)
    omega

theorem ofInt_eq_of_ordinal_eq {i j : Int} (h : (ofInt i).ordinal = (ofInt j).ordinal) :
    ofInt i = ofInt j := by
  rw [ordinal_ofInt, ordinal_ofInt] at h
  by_cases hi : i < 0 <;> by_cases hj : j < 0 <;>
    simp only [hi, hj, if_true, if_false] at h
  · simp only [ofInt, ofRatio, hi, hj, mk.injEq]
    exact ⟨trivial, by omega⟩
  · have := nearestMagnitude_pos (show 0 < i.natAbs by omega)
    omega
  · have := nearestMagnitude_pos (show 0 < j.natAbs by omega)
    omega
  · simp only [ofInt, ofRatio, hi, hj, mk.injEq]
    exact ⟨trivial, by omega⟩

/-- No other integer falls together with one of absolute value below 2^53. -/
theorem ofInt_eq_iff {i j : Int} (h : j.natAbs < twoPow 53) : ofInt i = ofInt j ↔ i = j := by
  refine ⟨fun heq => ?_, fun heq => heq ▸ rfl⟩
  simp only [ofInt, ofRatio, mk.injEq, decide_eq_decide] at heq
  have := nearestMagnitude_injective h heq.2
  omega

theorem isNaN_ofInt (i : Int) : (ofInt i).isNaN = false :=
  decide_eq_false (Nat.not_lt.2 (Nat.min_le_left _ _))

theorem compare?_ofInt (i j : Int) :
    (ofInt i).compare? (ofInt j) = some (compare (ofInt i).ordinal (ofInt j).ordinal) := by
  simp [compare?, isNaN_ofInt]

theorem compare?_ofInt_eq {i j : Int} :
    (ofInt i).compare? (ofInt j) = some .eq ↔ ofInt i = ofInt j := by
  rw [compare?_ofInt, Option.some.injEq, Int.compare_eq_eq]
  exact ⟨ofInt_eq_of_ordinal_eq, fun h => h ▸ rfl⟩

theorem compare?_ofInt_lt {i j : Int} :
    (ofInt i).compare? (ofInt j) = some .lt ↔ i < j ∧ ofInt i ≠ ofInt j := by
  rw [compare?_ofInt, Option.some.injEq, Int.compare_eq_lt]
  constructor
  · intro h
    refine ⟨?_, fun heq => ?_⟩
    · by_contra hle
      have := ordinal_ofInt_mono (show j ≤ i by omega)
      omega
    · rw [heq] at h
      omega
  · rintro ⟨hlt, hne⟩
    have hle := ordinal_ofInt_mono (show i ≤ j by omega)
    have : (ofInt i).ordinal ≠ (ofInt j).ordinal := fun h => hne (ofInt_eq_of_ordinal_eq h)
    omega

theorem compare?_ofInt_gt {i j : Int} :
    (ofInt i).compare? (ofInt j) = some .gt ↔ j < i ∧ ofInt i ≠ ofInt j := by
  have hswap := compare?_ofInt_lt (i := j) (j := i)
  rw [compare?_ofInt, Option.some.injEq, Int.compare_eq_lt] at hswap
  rw [compare?_ofInt, Option.some.injEq, Int.compare_eq_gt, hswap]
  exact and_congr_right fun _ => ne_comm

end Binary64

end PocketSql
