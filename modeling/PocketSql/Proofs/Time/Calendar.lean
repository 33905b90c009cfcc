/-
  Later days have later numbers.

  * `daysBeforeYear_add_one`, `daysBeforeMonth_year`: a year is as long as its months;
  * `CivilDate.Before`: a day before another one, by year, month and day;
  * `CivilDate.epochDay_lt`: its number is lower; `instantNanos_lt`: so are the instants of the day.
-/
import Mathlib.Order.Monotone.Basic
import PocketSql.Time.Timestamp

namespace PocketSql

/-! ## Years and months -/

/-- The number of days of a year. -/
def yearLength (year : Int) : Nat :=
  if isLeapYear year then 366 else 365

theorem daysBeforeYear_add_one (year : Int) :
    daysBeforeYear (year + 1) = daysBeforeYear year + yearLength year := by
  unfold daysBeforeYear yearLength isLeapYear
  split
  · next h =>
    simp only [Bool.and_eq_true, Bool.or_eq_true, beq_iff_eq, bne_iff_ne] at h
    omega
  · next h =>
    simp only [Bool.and_eq_true, Bool.or_eq_true, beq_iff_eq, bne_iff_ne] at h
    omega

theorem daysBeforeYear_mono {y z : Int} (h : y ≤ z) : daysBeforeYear y ≤ daysBeforeYear z := by
  unfold daysBeforeYear
  omega

theorem daysBeforeMonth_mono (year : Int) : Monotone (daysBeforeMonth year) :=
  monotone_nat_of_le_succ fun _ => Nat.le_add_right _ _

/-- The days before a thirteenth month are those of the year. -/
theorem daysBeforeMonth_year (year : Int) : daysBeforeMonth year 13 = yearLength year := by
  simp only [daysBeforeMonth, monthLength, yearLength]
  split <;> rfl

/-! ## Days -/

namespace CivilDate

variable {d e : CivilDate}

/-- A day comes before another one. -/
def Before (d e : CivilDate) : Prop :=
  d.year < e.year ∨ d.year = e.year ∧
    (d.month < e.month ∨ d.month = e.month ∧ d.day < e.day)

/-- A day lies in its month, and the month in its year. -/
theorem within_of_isValid (h : d.isValid = true) :
    1 ≤ d.day ∧ daysBeforeMonth d.year d.month + d.day ≤ daysBeforeMonth d.year (d.month + 1) ∧
      d.month + 1 ≤ 13 := by
  simp only [isValid, Bool.and_eq_true, decide_eq_true_eq] at h
  rw [daysBeforeMonth]
  omega

/-- **A day before another one has a lower number.** -/
theorem epochDay_lt (hd : d.isValid = true) (he : e.isValid = true) (h : d.Before e) :
    d.epochDay < e.epochDay := by
  obtain ⟨-, hmonth, hyear⟩ := within_of_isValid hd
  obtain ⟨hday, -, -⟩ := within_of_isValid he
  unfold epochDay
  rcases h with hlater | ⟨hsame, hlater | ⟨hmonths, hdays⟩⟩
  · have hmonths := daysBeforeMonth_mono d.year hyear
    rw [daysBeforeMonth_year] at hmonths
    have hyears := daysBeforeYear_mono (Int.add_one_le_iff.2 hlater)
    rw [daysBeforeYear_add_one] at hyears
    omega
  · have hmonths : daysBeforeMonth d.year (d.month + 1) ≤ daysBeforeMonth d.year e.month :=
      daysBeforeMonth_mono d.year hlater
    rw [hsame] at hmonth hmonths ⊢
    omega
  · rw [hsame, hmonths]
    omega

end CivilDate

/-! ## Instants -/

/-- A time comes before another one of the same day. -/
def DayTime.Before (t u : DayTime) : Prop :=
  t.hour < u.hour ∨ t.hour = u.hour ∧
    (t.minute < u.minute ∨ t.minute = u.minute ∧ t.second < u.second)

section
variable {d e : CivilDate} {t u : DayTime}

theorem DayTime.seconds_lt (ht : t.isValid = true) (h : t.Before u) : t.seconds < u.seconds := by
  simp only [isValid, Bool.and_eq_true, decide_eq_true_eq] at ht
  unfold Before at h
  unfold seconds
  omega

theorem DayTime.seconds_lt_day (ht : t.isValid = true) : t.seconds < 86400 := by
  simp only [isValid, Bool.and_eq_true, decide_eq_true_eq] at ht
  unfold seconds
  omega

/-- **Later days have later instants, and so do later times of one day.** -/
theorem instantNanos_lt (hd : d.isValid = true) (he : e.isValid = true) (ht : t.isValid = true)
    (hnano : t.nano < 1000000000) (h : d.Before e ∨ d = e ∧ t.Before u) :
    instantNanos d t < instantNanos e u := by
  have hday := DayTime.seconds_lt_day ht
  unfold instantNanos
  rcases h with hbefore | ⟨rfl, hbefore⟩
  · have hdays := CivilDate.epochDay_lt hd he hbefore
    omega
  · have hseconds := DayTime.seconds_lt ht hbefore
    omega

end

end PocketSql
