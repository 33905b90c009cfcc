/-
  Finite numbers read back from the text that shows them.

  * `nearestMagnitude_lt_infinity_iff`: a quotient is rounded to a finite number if and only if it
    is below `overflow`, the midpoint above the highest finite number; `isFinite_ofDecimal_iff`: so
    is a decimal;
  * `shortestFrom_inRange`, `Significand.value_shortest_lt`: the digits of a finite number spell a
    decimal below this midpoint; zeros that are left out do not change it;
  * `readUnsigned_decimal`, `readBinary64_signed`: how digits with or without a point and an
    exponent are read after a minus or nothing;
  * `ShownNumber`: a minus or nothing, and digits with or without a point, for a number below the
    midpoint; `ShownNumber.reads`: such a text is read as a finite number;
  * `Significand.exists_pointed`, `Binary64.shown_display`, `shown_toString`: the texts of finite
    numbers and of integers are of this form.
-/
import Mathlib.Algebra.Order.Field.Rat
import Mathlib.Algebra.Order.Field.Basic
import Mathlib.Data.List.TakeDrop
import Mathlib.Data.List.TakeWhile
import Mathlib.Tactic.Ring
import PocketSql.Number.DecimalText
import PocketSql.Proofs.Number.ExactValue
import PocketSql.Proofs.Token.Spelling

namespace PocketSql

/-! ## Rounding to a finite number -/

/-- The midpoint between the highest finite number and the first one that is out of range, in half
    units. -/
def overflow : Nat :=
  upperEnd (infinityMagnitude - 1)

theorem overflow_eq : overflow = (4 * fractionCount - 1) * twoPow 2045 := by decide +kernel

/-- Less than half above a whole number is rounded down. -/
theorem roundHalfEven_le_of_lt {n q den : Nat} (hden : 0 < den) (h : 2 * n < (2 * q + 1) * den) :
    roundHalfEven n den ≤ q := by
  have hdiv : n / den < q + 1 := by
    rw [Nat.div_lt_iff_lt_mul hden]
    have hsum : (2 * q + 1) * den + den = 2 * ((q + 1) * den) := by ring
    omega
  rcases Nat.lt_or_eq_of_le (Nat.le_of_lt_succ hdiv) with hlt | heq
  · exact Nat.le_trans (roundHalfEven_le_div_add_one n den) hlt
  · have hsplit := Nat.div_add_mod n den
    have hsum : (2 * q + 1) * den = 2 * (den * q) + den := by ring
    rw [heq] at hsplit
    simp only [roundHalfEven, heq]
    rw [if_pos (by omega)]

/-- Half above an odd whole number, or more, is rounded up. -/
theorem lt_roundHalfEven_of_le {n q den : Nat} (hden : 0 < den) (hodd : q % 2 = 1)
    (h : (2 * q + 1) * den ≤ 2 * n) : q < roundHalfEven n den := by
  have hsum : (2 * q + 1) * den = 2 * (q * den) + den := by ring
  have hdiv : q ≤ n / den := by
    rw [Nat.le_div_iff_mul_le hden]
    omega
  rcases Nat.lt_or_eq_of_le hdiv with hlt | heq
  · exact Nat.lt_of_lt_of_le hlt (div_le_roundHalfEven n den)
  · have hsplit := Nat.div_add_mod n den
    rw [← heq, Nat.mul_comm] at hsplit
    simp only [roundHalfEven, ← heq]
    rw [if_neg (by omega)]
    split <;> omega

theorem log2_lt_of_lt_twoPow {q n : Nat} (hq : q ≠ 0) (h : q < twoPow n) : q.log2 < n :=
  (Nat.log2_lt hq).2 h

theorem le_log2_of_twoPow_le {q n : Nat} (hq : q ≠ 0) (h : twoPow n ≤ q) : n ≤ q.log2 :=
  (Nat.le_log2 hq).2 h

/-- **What lies below the midpoint is rounded to a finite number.** -/
theorem nearestMagnitude_lt_infinity {num den : Nat} (hden : 0 < den)
    (h : 2 * (num * unitsInOne) < overflow * den) :
    nearestMagnitude num den < infinityMagnitude := by
  simp only [nearestMagnitude]
  generalize num * unitsInOne = scaled at h ⊢
  have hcount : fractionCount = 0x10000000000000 := rfl
  have hinf : infinityMagnitude = 2047 * fractionCount := by decide
  refine Nat.lt_of_le_of_lt (Nat.min_le_right _ _) ?_
  rcases Nat.lt_or_ge ((scaled / den).log2 - 52) 2045 with hlow | hhigh
  · have hround := roundHalfEven_place_le (x := scaled) hden
    have hplace := Nat.mul_le_mul_right fractionCount (Nat.le_of_lt_succ hlow)
    omega
  · -- the highest place: the quotient has 2098 bits, and 53 of them are kept
    have hrange : twoPow 2098 = 2 * fractionCount * twoPow 2045 := by
      rw [two_mul_fractionCount, ← twoPow_add]
    have hpos : 0 < den * twoPow 2045 := Nat.mul_pos hden (twoPow_pos 2045)
    have hhalf : 2 * scaled < (2 * (2 * fractionCount - 1) + 1) * (den * twoPow 2045) := by
      rw [overflow_eq, Nat.mul_assoc, Nat.mul_comm (twoPow 2045)] at h
      exact h
    have hbits : scaled / den < twoPow 2098 := by
      rw [Nat.div_lt_iff_lt_mul hden, hrange, Nat.mul_assoc, Nat.mul_comm (twoPow 2045)]
      have hle := Nat.mul_le_mul_right (den * twoPow 2045)
        (show 2 * (2 * fractionCount - 1) + 1 ≤ 2 * (2 * fractionCount) by decide)
      rw [Nat.mul_assoc 2 (2 * fractionCount)] at hle
      omega
    have hplace : (scaled / den).log2 - 52 = 2045 := by
      have hne : scaled / den ≠ 0 := by
        intro hzero
        rw [hzero] at hhigh
        cases hhigh
      have hlog := log2_lt_of_lt_twoPow hne hbits
      omega
    have hround := roundHalfEven_le_of_lt hpos hhalf
    rw [hplace]
    omega

/-- From the midpoint on a quotient is rounded to infinity, also at the midpoint itself: the highest
    finite number is odd. -/
theorem nearestMagnitude_eq_infinity {num den : Nat} (hden : 0 < den)
    (h : overflow * den ≤ 2 * (num * unitsInOne)) :
    nearestMagnitude num den = infinityMagnitude := by
  simp only [nearestMagnitude]
  generalize num * unitsInOne = scaled at h ⊢
  have hinf : infinityMagnitude = 2047 * fractionCount := by decide
  rw [overflow_eq] at h
  have hbits : twoPow 2097 ≤ scaled / den := by
    rw [Nat.le_div_iff_mul_le hden]
    have hhalf : 2 * twoPow 2097 ≤ (4 * fractionCount - 1) * twoPow 2045 := by decide +kernel
    have hle := Nat.mul_le_mul_right den hhalf
    rw [Nat.mul_assoc] at hle
    omega
  have hne : scaled / den ≠ 0 := Nat.ne_of_gt (Nat.lt_of_lt_of_le (twoPow_pos 2097) hbits)
  have hplace : 2045 ≤ (scaled / den).log2 - 52 :=
    Nat.le_sub_of_add_le (le_log2_of_twoPow_le hne hbits)
  refine Nat.min_eq_left ?_
  rcases Nat.lt_or_eq_of_le hplace with hhigh | heq
  · have hround := le_roundHalfEven_place (x := scaled) hden (by omega)
    have hle := Nat.mul_le_mul_right fractionCount hhigh
    omega
  · -- the highest place: half above an odd quotient
    have hodd : 4 * fractionCount - 1 = 2 * (2 * fractionCount - 1) + 1 := by decide
    rw [hodd, Nat.mul_assoc, Nat.mul_comm (twoPow 2045)] at h
    have hround := lt_roundHalfEven_of_le (Nat.mul_pos hden (twoPow_pos 2045)) (by decide) h
    rw [← heq]
    omega

theorem nearestMagnitude_lt_infinity_iff {num den : Nat} (hden : 0 < den) :
    nearestMagnitude num den < infinityMagnitude ↔
      2 * (num * unitsInOne) < overflow * den := by
  constructor
  · intro hlt
    by_contra hge
    exact absurd (nearestMagnitude_eq_infinity hden (Nat.le_of_not_lt hge)) (Nat.ne_of_lt hlt)
  · exact nearestMagnitude_lt_infinity hden

/-! ## The digits of a finite number -/

/-- The decimal `d * 10^k` lies below the midpoint. -/
def InRange (d : Nat) (k : Int) : Prop :=
  d * gridStep k < overflow * unitStep k

section
variable {tie : TieRule} {magnitude d : Nat} {k : Int}

theorem unitStep_pos (k : Int) : 0 < unitStep k :=
  Nat.pow_pos (by decide)

theorem upperEnd_strictMono : StrictMono upperEnd := fun _ _ h =>
  Nat.add_lt_add (unitsOf_strictMono h) (unitsOf_strictMono (Nat.add_lt_add_right h 1))

/-- A decimal that reads back as a finite number is in range: the ends of the interval count for the
    even magnitudes only, and that of the highest finite number is odd. -/
theorem inRange_of_readsBack (hm : magnitude < infinityMagnitude)
    (h : readsBack magnitude d k = true) : InRange d k := by
  have hle : upperEnd magnitude ≤ overflow :=
    upperEnd_strictMono.monotone (Nat.le_sub_one_of_lt hm)
  unfold readsBack at h
  split at h
  · next heven =>
    have hne : magnitude ≠ infinityMagnitude - 1 := by
      rintro rfl
      exact absurd heven (by decide)
    have hlt : upperEnd magnitude < overflow := upperEnd_strictMono (by omega)
    have hpoint := of_decide_eq_true (Bool.and_eq_true_iff.1 h).2
    exact Nat.lt_of_le_of_lt hpoint (Nat.mul_lt_mul_of_pos_right hlt (unitStep_pos k))
  · have hpoint := of_decide_eq_true (Bool.and_eq_true_iff.1 h).2
    exact Nat.lt_of_lt_of_le hpoint (Nat.mul_le_mul_right _ hle)

theorem nearer_eq (tie : TieRule) (magnitude d : Nat) (k : Int) :
    nearer tie magnitude d k = d ∨ nearer tie magnitude d k = d + 1 := by
  unfold nearer
  dsimp only
  split
  · exact .inl rfl
  · split
    · exact .inr rfl
    · cases tie with
      | even =>
        dsimp only
        omega
      | up => exact .inr rfl

/-- What is found on a grid reads back. -/
theorem readsBack_of_onGrid (h : onGrid tie magnitude k = some d) :
    readsBack magnitude d k = true := by
  unfold onGrid at h
  dsimp only at h
  generalize 2 * unitsOf magnitude * unitStep k / gridStep k = low at h
  split at h
  · next hlow hhigh =>
    obtain rfl := Option.some.inj h
    rcases nearer_eq tie magnitude low k with heq | heq
    · exact (congrArg (readsBack magnitude · k) heq).trans hlow
    · exact (congrArg (readsBack magnitude · k) heq).trans hhigh
  · next hlow _ =>
    obtain rfl := Option.some.inj h
    exact hlow
  · next _ hhigh =>
    obtain rfl := Option.some.inj h
    exact hhigh
  · cases h

/-- By induction on the grids: the digits of a finite number are in range, also if no grid hits. -/
theorem shortestFrom_inRange (tie : TieRule) (hm : magnitude < infinityMagnitude) (tries : Nat)
    (k : Int) :
    InRange (shortestFrom tie magnitude tries k).1 (shortestFrom tie magnitude tries k).2 := by
  induction tries generalizing k with
  | zero =>
    have hunits : 2 * unitsOf magnitude < overflow := by
      have hnext := unitsOf_strictMono (Nat.lt_add_one magnitude)
      have hle : upperEnd magnitude ≤ overflow :=
        upperEnd_strictMono.monotone (Nat.le_sub_one_of_lt hm)
      unfold upperEnd at hle
      omega
    exact Nat.lt_of_le_of_lt (Nat.div_mul_le_self _ _)
      (Nat.mul_lt_mul_of_pos_right hunits (unitStep_pos k))
  | succ tries ih =>
    rw [shortestFrom]
    split
    · next hhit => exact inRange_of_readsBack hm (readsBack_of_onGrid hhit)
    · exact ih (k - 1)

end

/-! ## Digits as numbers -/

theorem tenPow_add (m n : Nat) : tenPow (m + n) = tenPow m * tenPow n :=
  Nat.pow_add 10 m n

theorem tenPow_le {m n : Nat} (h : m ≤ n) : tenPow m ≤ tenPow n :=
  Nat.pow_le_pow_right (by decide) h

theorem digitsFrom_eq (start : Nat) (cs : List Char) :
    digitsFrom start cs = start * tenPow cs.length + digitsValue cs := by
  induction cs generalizing start with
  | nil => simp [digitsFrom, digitsValue, tenPow]
  | cons c cs ih =>
    have hstep : ∀ n, digitsFrom n (c :: cs) = digitsFrom (10 * n + digitValue c) cs := fun _ => rfl
    rw [digitsValue, hstep, hstep, ih, ih (10 * 0 + digitValue c), List.length_cons, tenPow_add,
      show tenPow 1 = 10 by rfl]
    ring

theorem digitsValue_append (cs ds : List Char) :
    digitsValue (cs ++ ds) = digitsValue cs * tenPow ds.length + digitsValue ds := by
  rw [← digitsFrom_eq, digitsValue, digitsFrom, List.foldl_append]
  rfl

theorem digitsValue_zeros (n : Nat) : digitsValue (List.replicate n '0') = 0 := by
  induction n with
  | zero => rfl
  | succ n ih =>
    rw [List.replicate_succ, ← List.singleton_append, digitsValue_append, ih]
    simp [digitsValue, digitsFrom, digitValue]

/-- Only zeros at the end are dropped. -/
theorem exists_dropFinalZeros {digits : List Char} (hne : digits ≠ []) :
    dropFinalZeros digits ≠ [] ∧
      ∃ n, digits = dropFinalZeros digits ++ List.replicate n '0' := by
  have hsplit : digits = (digits.reverse.dropWhile (· = '0')).reverse ++
      (digits.reverse.takeWhile (· = '0')).reverse := by
    rw [← List.reverse_append, List.takeWhile_append_dropWhile, List.reverse_reverse]
  obtain ⟨n, hzeros⟩ : ∃ n, (digits.reverse.takeWhile (· = '0')).reverse =
      List.replicate n '0' := by
    refine ⟨_, List.eq_replicate_iff.2 ⟨rfl, fun c hc => ?_⟩⟩
    exact of_decide_eq_true (List.all_eq_true.1 List.all_takeWhile c (List.mem_reverse.1 hc))
  rw [hzeros] at hsplit
  unfold dropFinalZeros
  split
  · next hnone =>
    rw [hnone, List.nil_append] at hsplit
    cases n with
    | zero => exact absurd hsplit hne
    | succ n => exact ⟨List.cons_ne_nil _ _, n, hsplit⟩
  · next kept hkept => exact ⟨hkept, n, hsplit⟩

/-! ## Decimals -/

section
variable {d : Nat} {k : Int}

theorem natCast_tenPow (n : Nat) : (tenPow n : ℚ) = 10 ^ (n : Int) := by
  rw [zpow_natCast, show tenPow n = 10 ^ n by rfl, Nat.cast_pow]
  rfl

theorem ten_zpow_add (m n : Int) : (10 : ℚ) ^ (m + n) = 10 ^ m * 10 ^ n :=
  zpow_add₀ (by norm_num) m n

theorem ten_zpow_mul (k : Int) : (10 : ℚ) ^ k * (tenPow (-k).toNat : ℕ) = (tenPow k.toNat : ℕ) := by
  rcases Int.le_total 0 k with hk | hk
  · obtain ⟨n, rfl⟩ := Int.eq_ofNat_of_zero_le hk
    simp [tenPow]
  · obtain ⟨n, hn⟩ := Int.eq_ofNat_of_zero_le (Int.neg_nonneg_of_nonpos hk)
    obtain rfl : k = -(n : Int) := by omega
    simp [tenPow]

/-- A decimal in range, as a rational number. -/
theorem inRange_iff : InRange d k ↔ (d : ℚ) * 10 ^ k * (2 * unitsInOne) < overflow := by
  have hcast : InRange d k ↔ (d : ℚ) * (2 * unitsInOne * (tenPow k.toNat : ℕ)) <
      overflow * (tenPow (-k).toNat : ℕ) := by
    unfold InRange gridStep unitStep
    exact_mod_cast Iff.rfl
  have hpos : (0 : ℚ) < (tenPow (-k).toNat : ℕ) := by
    exact_mod_cast unitStep_pos k
  have hsteps : (d : ℚ) * (2 * unitsInOne * (tenPow k.toNat : ℕ)) =
      d * 10 ^ k * (2 * unitsInOne) * (tenPow (-k).toNat : ℕ) := by
    rw [← ten_zpow_mul k]
    ring
  rw [hcast, hsteps, mul_lt_mul_iff_left₀ hpos]

/-! ### Decimals that are rounded -/

theorem overflow_pos : 0 < overflow := by decide +kernel

theorem inRange_zero (k : Int) : InRange 0 k := by
  rw [InRange, Nat.zero_mul]
  exact Nat.mul_pos overflow_pos (unitStep_pos k)

theorem not_inRange_of_high (hd : d ≠ 0) (hk : 310 < k) : ¬ InRange d k := by
  have hoverflow : overflow ≤ 2 * unitsInOne * tenPow 310 := by decide +kernel
  have hstep : 2 * unitsInOne * tenPow 310 ≤ gridStep k :=
    Nat.mul_le_mul_left _ (tenPow_le (by omega))
  have hunit : unitStep k = 1 := by
    rw [unitStep, Int.toNat_of_nonpos (by omega)]
    rfl
  rw [InRange, hunit, Nat.mul_one, Nat.not_lt]
  exact Nat.le_trans (Nat.le_trans hoverflow hstep)
    (Nat.le_mul_of_pos_left _ (Nat.pos_of_ne_zero hd))

theorem inRange_of_low (hk : k + d.log2 + 1 < -330) : InRange d k := by
  have hunits : 2 * unitsInOne ≤ overflow := by decide +kernel
  have hdigits : d < unitStep k :=
    calc d < twoPow (d.log2 + 1) := Nat.lt_log2_self
      _ ≤ tenPow (d.log2 + 1) := Nat.pow_le_pow_left (by decide) _
      _ ≤ tenPow (-k).toNat := tenPow_le (by omega)
  have hstep : gridStep k = 2 * unitsInOne := by
    rw [gridStep, Int.toNat_of_nonpos (by omega), show tenPow 0 = 1 by rfl, Nat.mul_one]
  rw [InRange, hstep]
  calc d * (2 * unitsInOne) ≤ d * overflow := Nat.mul_le_mul_left d hunits
    _ < unitStep k * overflow := Nat.mul_lt_mul_of_pos_right hdigits overflow_pos
    _ = overflow * unitStep k := Nat.mul_comm _ _

/-- **A decimal is rounded to a finite number if and only if it is in range.** -/
theorem isFinite_ofDecimal_iff (negative : Bool) :
    (Binary64.ofDecimal negative d k).isFinite = true ↔ InRange d k := by
  have hzero : (Binary64.zero negative).isFinite = true := by
    cases negative <;> decide
  have hinfinity : (Binary64.infinity negative).isFinite = false := by
    cases negative <;> decide
  unfold Binary64.ofDecimal
  split
  · next hd =>
    rw [hd]
    exact iff_of_true hzero (inRange_zero k)
  · next hd =>
    split
    · next hhigh => exact iff_of_false (by simp [hinfinity]) (not_inRange_of_high hd hhigh)
    · split
      · next hlow => exact iff_of_true hzero (inRange_of_low hlow)
      · have hrange : InRange d k ↔
            2 * (d * tenPow k.toNat * unitsInOne) < overflow * unitStep k := by
          have hsteps : d * gridStep k = 2 * (d * tenPow k.toNat * unitsInOne) := by
            rw [gridStep]
            ring
          rw [InRange, hsteps]
        rw [hrange, ← nearestMagnitude_lt_infinity_iff (unitStep_pos k)]
        exact decide_eq_true_iff

end

namespace Significand

variable {magnitude : Nat}

/-- The decimal that digits spell from a place on. -/
def value (s : Significand) : ℚ :=
  digitsValue s.digits * 10 ^ (s.place + 1 - s.digits.length)

/-- A decimal keeps its value when the zeros at its end are dropped. -/
theorem value_dropFinalZeros {digits : List Char} (hne : digits ≠ []) (place : Int) :
    value ⟨dropFinalZeros digits, place⟩ = value ⟨digits, place⟩ := by
  obtain ⟨-, n, hdigits⟩ := exists_dropFinalZeros hne
  have hvalue : digitsValue digits = digitsValue (dropFinalZeros digits) * tenPow n := by
    conv_lhs => rw [hdigits]
    rw [digitsValue_append, digitsValue_zeros, List.length_replicate, Nat.add_zero]
  have hlength : digits.length = (dropFinalZeros digits).length + n := by
    conv_lhs => rw [hdigits]
    rw [List.length_append, List.length_replicate]
  have hpow : (10 : ℚ) ^ (place + 1 - (dropFinalZeros digits).length) =
      tenPow n * 10 ^ (place + 1 - digits.length) := by
    rw [natCast_tenPow, ← ten_zpow_add, hlength]
    congr 1
    push_cast
    ring
  rw [value, value, hpow, hvalue, Nat.cast_mul, mul_assoc]

/-- **The digits of a finite number spell a decimal below the midpoint.** -/
theorem value_shortest_lt (tie : TieRule) (hm : magnitude < infinityMagnitude) :
    (shortest tie magnitude).value * (2 * unitsInOne) < overflow := by
  unfold shortest
  split
  · have hzero : value ⟨['0'], 0⟩ = 0 := by simp [value, digitsValue, digitsFrom, digitValue]
    rw [hzero, zero_mul]
    exact_mod_cast overflow_pos
  · have hrange := shortestFrom_inRange tie hm 17 (leadingPlace magnitude)
    rw [inRange_iff] at hrange
    generalize shortestFrom tie magnitude 17 (leadingPlace magnitude) = found at hrange ⊢
    obtain ⟨d, k⟩ := found
    dsimp only at hrange ⊢
    rw [value_dropFinalZeros Nat.toDigits_ne_nil, value, digitsValue_toDigits]
    rwa [show k + (Nat.toDigits 10 d).length - 1 + 1 - (Nat.toDigits 10 d).length = k by ring]

/-- The digits of a number are digits, at least one. -/
theorem digits_shortest (tie : TieRule) (magnitude : Nat) :
    (shortest tie magnitude).digits ≠ [] ∧
      ∀ c ∈ (shortest tie magnitude).digits, c.isDigit = true := by
  unfold shortest
  split
  · exact ⟨List.cons_ne_nil _ _, by simp⟩
  · generalize shortestFrom tie magnitude 17 (leadingPlace magnitude) = found
    have hsome : Nat.toDigits 10 found.1 ≠ [] := Nat.toDigits_ne_nil
    obtain ⟨hne, n, hdigits⟩ := exists_dropFinalZeros hsome
    refine ⟨hne, fun c hc => isDigit_of_mem_toDigits (n := found.1) ?_⟩
    rw [hdigits]
    exact List.mem_append_left _ hc

end Significand

/-! ## Numbers in text -/

/-- Digits, with a point before the last ones if there are any. -/
def pointed (whole fraction : List Char) : List Char :=
  whole ++ if fraction.isEmpty then [] else '.' :: fraction

/-- A minus or nothing, and the digits of a decimal below the midpoint. -/
inductive ShownNumber : List Char → Prop
  | intro {sign whole fraction} : sign ∈ [[], ['-']] → whole ≠ [] →
      (∀ c ∈ whole ++ fraction, c.isDigit = true) →
      2 * (digitsValue (whole ++ fraction) * unitsInOne) < overflow * tenPow fraction.length →
      ShownNumber (sign ++ pointed whole fraction)

section
variable {c : Char} {cs whole fraction : List Char}

theorem mem_pointed (h : c ∈ pointed whole fraction) : c ∈ whole ++ fraction ∨ c = '.' := by
  rcases List.mem_append.1 h with hwhole | hrest
  · exact .inl (List.mem_append_left _ hwhole)
  · split at hrest
    · cases hrest
    · rcases List.mem_cons.1 hrest with rfl | hfraction
      · exact .inr rfl
      · exact .inl (List.mem_append_right _ hfraction)

/-- A minus stands at the start only, and all else are digits and a point. -/
theorem ShownNumber.mem (h : ShownNumber cs) :
    (∀ c ∈ cs, c.isDigit = true ∨ c = '.' ∨ c = '-') ∧ '-' ∉ cs.tail := by
  obtain ⟨hsign, hne, hdigits, -⟩ := h
  rename_i sign whole fraction
  have hpointed : ∀ c ∈ pointed whole fraction, c.isDigit = true ∨ c = '.' := fun c hc =>
    (mem_pointed hc).imp_left (hdigits c)
  have hminus : '-' ∉ pointed whole fraction := fun hmem => by
    rcases hpointed '-' hmem with h | h <;> cases h
  simp only [List.mem_cons, List.not_mem_nil, or_false] at hsign
  rcases hsign with rfl | rfl
  · exact ⟨fun c hc => (hpointed c hc).imp_right .inl,
      fun hmem => hminus (List.mem_of_mem_tail hmem)⟩
  · refine ⟨fun c hc => ?_, hminus⟩
    rcases List.mem_cons.1 hc with rfl | hc
    · exact .inr (.inr rfl)
    · exact (hpointed c hc).imp_right .inl

/-! ### Reading -/

theorem head_of_readExponent {exponent : List Char} {power : Int}
    (h : readExponent exponent = some power) :
    ∀ c ∈ exponent.head?, c.isDigit = false ∧ c ≠ '.' := by
  cases exponent with
  | nil => exact fun _ hc => nomatch hc
  | cons mark rest =>
    rintro _ ⟨⟩
    simp only [readExponent] at h
    split at h
    · next hmark =>
      have hmark : mark = 'e' ∨ mark = 'E' := by simpa using hmark
      rcases hmark with rfl | rfl <;> decide
    · cases h

/-- Digits with or without a point and an exponent are read as one number, in units of the last
    digit. -/
theorem readUnsigned_decimal {point exponent : List Char} {power : Int}
    (hdigits : ∀ c ∈ whole ++ fraction, c.isDigit = true) (hne : whole ++ fraction ≠ [])
    (hpoint : point = ['.'] ∨ point = [] ∧ fraction = [])
    (hpower : readExponent exponent = some power) (negative : Bool) :
    readUnsigned negative (whole ++ (point ++ (fraction ++ exponent))) =
      some (.ofDecimal negative (digitsValue (whole ++ fraction)) (power - fraction.length)) := by
  obtain ⟨hwhole, hfraction⟩ := List.forall_mem_append.1 hdigits
  have hhead := head_of_readExponent hpower
  have hsome : (whole ++ fraction).isEmpty = false := by simpa using hne
  rcases hpoint with rfl | ⟨rfl, rfl⟩
  · have hmark : ∀ c ∈ ('.' :: (fraction ++ exponent)).head?, c.isDigit = false := by
      rintro _ ⟨⟩
      rfl
    obtain ⟨htake, hdrop⟩ := takeWhile_of_head hwhole hmark
    obtain ⟨htake', hdrop'⟩ := takeWhile_of_head hfraction fun c hc => (hhead c hc).1
    rw [List.singleton_append, readUnsigned, List.span_eq_takeWhile_dropWhile, htake, hdrop]
    simp only [splitFraction, List.span_eq_takeWhile_dropWhile, htake', hdrop', hsome, hpower,
      Bool.false_eq_true, if_false, Option.map_some]
  · obtain ⟨htake, hdrop⟩ := takeWhile_of_head hwhole fun c hc => (hhead c hc).1
    have hnone : splitFraction exponent = ([], exponent) := by
      unfold splitFraction
      split
      · next rest => exact absurd rfl (hhead '.' rfl).2
      · rfl
    rw [List.nil_append, List.nil_append, readUnsigned, List.span_eq_takeWhile_dropWhile, htake,
      hdrop]
    simp only [hnone, hsome, hpower, Bool.false_eq_true, if_false, Option.map_some]

/-- What begins with a digit or a point is no word. -/
theorem lowerText_ne {d : Char} {name : List Char} (hc : c.isDigit = true ∨ c = '.')
    (hd : d.isDigit = false ∧ d ≠ '.') : lowerText (c :: cs) ≠ d :: name := by
  intro h
  have hlower : c.toLower = c := by
    rcases hc with hdigit | rfl
    · unfold Char.toLower
      split
      · next hcapital =>
        have hlow : 65 ≤ c.toNat := hcapital.1
        have hnine : '9'.toNat = 57 := rfl
        have hhigh := (Char.isDigit_iff_toNat.1 hdigit).2
        omega
      · rfl
    · rfl
  rw [lowerText, List.map_cons, hlower] at h
  obtain rfl := (List.cons.inj h).1
  rcases hc with hdigit | hpoint
  · cases hd.1.symm.trans hdigit
  · exact hd.2 hpoint

/-- A minus or nothing before a number is its sign. -/
theorem splitSign_number {sign : List Char} (hsign : sign ∈ [[], ['-']])
    (hc : c.isDigit = true ∨ c = '.') :
    splitSign (sign ++ c :: cs) = (!sign.isEmpty, c :: cs) := by
  simp only [List.mem_cons, List.not_mem_nil, or_false] at hsign
  rcases hsign with rfl | rfl
  · have hminus : c ≠ '-' := by
      rintro rfl
      rcases hc with h | h <;> cases h
    have hplus : c ≠ '+' := by
      rintro rfl
      rcases hc with h | h <;> cases h
    simp [splitSign, hminus, hplus]
  · rfl

/-- A number after a minus or nothing is read without it. -/
theorem readBinary64_signed {sign : List Char} (hsign : sign ∈ [[], ['-']])
    (hc : c.isDigit = true ∨ c = '.') :
    readBinary64 (sign ++ c :: cs) = readUnsigned (!sign.isEmpty) (c :: cs) := by
  have hword {d : Char} {name : List Char} (hd : d.isDigit = false ∧ d ≠ '.') :
      lowerText (c :: cs) ≠ d :: name := lowerText_ne hc hd
  have hinf : lowerText (c :: cs) ≠ "inf".toList := hword (by decide)
  have hinfinity : lowerText (c :: cs) ≠ "infinity".toList := hword (by decide)
  have hnan : lowerText (c :: cs) ≠ "nan".toList := hword (by decide)
  simp only [readBinary64, splitSign_number hsign hc, hinf, hinfinity, hnan, decide_false,
    Bool.or_self, Bool.false_eq_true, if_false]

theorem inRange_neg_iff {d n : Nat} :
    InRange d (0 - (n : Int)) ↔ 2 * (d * unitsInOne) < overflow * tenPow n := by
  have hnone : (0 - (n : Int)).toNat = 0 := by omega
  have hsome : (-(0 - (n : Int))).toNat = n := by omega
  rw [InRange, gridStep, unitStep, hnone, hsome, show tenPow 0 = 1 by rfl, Nat.mul_one,
    Nat.mul_left_comm]

/-- **Such a text is read as a finite number.** -/
theorem ShownNumber.reads (h : ShownNumber cs) :
    ∃ x, readBinary64 cs = some x ∧ x.isFinite = true := by
  obtain ⟨hsign, hne, hdigits, hrange⟩ := h
  rename_i sign whole fraction
  obtain ⟨c, digits, rfl⟩ := List.exists_cons_of_ne_nil hne
  have hc := hdigits c List.mem_cons_self
  have htext : pointed (c :: digits) fraction =
      c :: digits ++ ((if fraction.isEmpty then [] else ['.']) ++ (fraction ++ [])) := by
    cases fraction <;> simp [pointed]
  have hpoint : (if fraction.isEmpty then [] else ['.']) = ['.'] ∨
      (if fraction.isEmpty then [] else ['.']) = [] ∧ fraction = [] := by
    cases fraction <;> simp
  have hpower : readExponent [] = some 0 := rfl
  have hread := readUnsigned_decimal hdigits (List.cons_ne_nil _ _) hpoint hpower (!sign.isEmpty)
  rw [htext, List.cons_append, readBinary64_signed hsign (.inl hc), ← List.cons_append, hread]
  exact ⟨_, rfl, (isFinite_ofDecimal_iff _).2 (inRange_neg_iff.2 hrange)⟩

end

/-! ### Writing -/

namespace Significand

variable {s : Significand}

/-- A decimal in units of a place at or below its last digit. -/
theorem value_mul_tenPow {m n : Nat} (h : s.place + 1 - s.digits.length + n = m) :
    s.value * tenPow n = (digitsValue s.digits * tenPow m : ℕ) := by
  rw [value, mul_assoc, natCast_tenPow, ← ten_zpow_add, h, Nat.cast_mul, natCast_tenPow]

/-- A positional text spells the decimal. -/
theorem exists_pointed (hne : s.digits ≠ []) (hdigits : ∀ c ∈ s.digits, c.isDigit = true) :
    ∃ whole fraction, s.positionalText [] = pointed whole fraction ∧ whole ≠ [] ∧
      (∀ c ∈ whole ++ fraction, c.isDigit = true) ∧
      s.value * tenPow fraction.length = digitsValue (whole ++ fraction) := by
  have hzeros : ∀ n, ∀ c ∈ List.replicate n '0', c.isDigit = true := by
    intro n c hc
    rw [(List.mem_replicate.1 hc).2]
    rfl
  unfold positionalText
  split
  · next hplace =>
    -- all digits stand after the point
    generalize hcount : (-s.place - 1).toNat = zeros
    refine ⟨['0'], List.replicate zeros '0' ++ s.digits, ?_, List.cons_ne_nil _ _, ?_, ?_⟩
    · simp [pointed, hne]
    · simpa [or_imp, forall_and, -List.mem_replicate] using ⟨hzeros zeros, hdigits⟩
    · have hvalue : digitsValue (['0'] ++ (List.replicate zeros '0' ++ s.digits)) =
          digitsValue s.digits * tenPow 0 := by
        rw [← List.append_assoc, List.singleton_append, ← List.replicate_succ, digitsValue_append,
          digitsValue_zeros, Nat.zero_mul, Nat.zero_add]
        exact (Nat.mul_one _).symm
      rw [hvalue]
      refine value_mul_tenPow ?_
      rw [List.length_append, List.length_replicate]
      omega
  · next hplace =>
    dsimp only
    split
    · next hsize =>
      -- all digits stand before the point
      generalize hcount : s.place.toNat + 1 - s.digits.length = zeros
      refine ⟨s.digits ++ List.replicate zeros '0', [], ?_, ?_, ?_, ?_⟩
      · simp [pointed]
      · simp [hne]
      · simpa [or_imp, forall_and, -List.mem_replicate] using ⟨hdigits, hzeros zeros⟩
      · rw [List.append_nil, digitsValue_append, digitsValue_zeros, Nat.add_zero,
          List.length_replicate]
        exact value_mul_tenPow (by rw [List.length_nil]; omega)
    · next hsize =>
      generalize hcount : s.place.toNat + 1 = size at hsize ⊢
      have hfraction : s.digits.drop size ≠ [] := fun h => hsize (List.drop_eq_nil_iff.1 h)
      refine ⟨s.digits.take size, s.digits.drop size, ?_, ?_, ?_, ?_⟩
      · simp [pointed, hfraction]
      · have hpos : size ≠ 0 := by omega
        simp [hne, hpos]
      · rwa [List.take_append_drop]
      · rw [List.take_append_drop, ← Nat.mul_one (digitsValue s.digits)]
        refine value_mul_tenPow (m := 0) ?_
        rw [List.length_drop]
        omega

end Significand

/-- The text of a decimal in range. -/
theorem Significand.shown {s : Significand} {sign : List Char} (hsign : sign ∈ [[], ['-']])
    (hne : s.digits ≠ []) (hdigits : ∀ c ∈ s.digits, c.isDigit = true)
    (hrange : s.value * (2 * unitsInOne) < overflow) :
    ShownNumber (sign ++ s.positionalText []) := by
  obtain ⟨whole, fraction, htext, hwhole, hall, hvalue⟩ := s.exists_pointed hne hdigits
  rw [htext]
  refine .intro hsign hwhole hall ?_
  have hpos : (0 : ℚ) < tenPow fraction.length := by
    exact_mod_cast Nat.pow_pos (n := fraction.length) (show 0 < 10 by decide)
  have hmul := mul_lt_mul_of_pos_right hrange hpos
  have hcast : (2 * (digitsValue (whole ++ fraction) * unitsInOne) : ℚ) <
      overflow * tenPow fraction.length := by
    rw [← hvalue]
    calc (2 * (s.value * tenPow fraction.length * unitsInOne) : ℚ)
        = s.value * (2 * unitsInOne) * tenPow fraction.length := by ring
      _ < overflow * tenPow fraction.length := hmul
  exact_mod_cast hcast

/-- **A finite number is shown as a number.** -/
theorem Binary64.shown_display {x : Binary64} (hx : x.isFinite = true) :
    ShownNumber x.display.toList := by
  have hnan : x.isNaN = false := by
    have hlt := of_decide_eq_true hx
    exact decide_eq_false (by omega)
  obtain ⟨hne, hdigits⟩ := Significand.digits_shortest .up x.magnitude
  have hrange := Significand.value_shortest_lt .up (of_decide_eq_true hx)
  have hsign : (if x.negative then ['-'] else []) ∈ [[], ['-']] := by
    split <;> simp
  have hshown := Significand.shown hsign hne hdigits hrange
  have htext : x.display.toList =
      (if x.negative then ['-'] else []) ++ (shortest .up x.magnitude).positionalText [] := by
    rw [display, text, hnan, if_neg Bool.false_ne_true, String.toList_ofList, hx, if_pos rfl]
    split <;> rfl
  rwa [htext]

/-- **So is an integer of 64 bits.** -/
theorem shown_toString (i : Int64) : ShownNumber (toString i.toInt).toList := by
  have hfits : i.toInt.natAbs ≤ signedLimit := by
    have hlow := i.le_toInt
    have hhigh := i.toInt_lt
    have hlimit : signedLimit = 9223372036854775808 := rfl
    omega
  have hsign : (if i.toInt < 0 then ['-'] else []) ∈ [[], ['-']] := by
    split <;> simp
  have hrange : 2 * (digitsValue (Nat.toDigits 10 i.toInt.natAbs ++ []) * unitsInOne) <
      overflow * tenPow ([] : List Char).length := by
    rw [List.append_nil, digitsValue_toDigits, List.length_nil]
    calc 2 * (i.toInt.natAbs * unitsInOne) ≤ 2 * (signedLimit * unitsInOne) :=
          Nat.mul_le_mul_left 2 (Nat.mul_le_mul_right _ hfits)
      _ < overflow * tenPow 0 := by decide +kernel
  have hshown := ShownNumber.intro hsign (Nat.toDigits_ne_nil (n := i.toInt.natAbs) (b := 10))
    (by simpa using fun c => isDigit_of_mem_toDigits) hrange
  rw [toList_toString_int]
  split
  · next hneg => simpa [hneg, pointed] using hshown
  · next hpos => simpa [hpos, pointed] using hshown

end PocketSql
