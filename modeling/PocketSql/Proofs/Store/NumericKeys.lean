/-
  Numbers in unique columns.

  * `Value.rational?`: the number that a value stands for;
  * `Value.key?_eq_key?_iff`: two values that stand for numbers have the same identity if and only if
    they stand for the same one, except that -2^63 has one identity as an integer and another one as
    a decimal (`Value.SplitsLowest`);
  * `numeric_keys`: so no unique column of a reached store holds the same number twice, except
    -2^63 written in the two ways.
-/
import Mathlib.Data.Rat.Cast.CharZero
import PocketSql.Proofs.Number.ExactValue
import PocketSql.Proofs.Store.Validity

namespace PocketSql

/-! ## The lowest integer -/

/-- -2^63 as a decimal. -/
def Binary64.lowestInteger : Binary64 :=
  .ofInt (-signedLimit)

theorem Binary64.toRat_lowestInteger : lowestInteger.toRat = ((-signedLimit : Int) : ℚ) := by
  rw [toRat_eq_intCast_iff]
  decide +kernel

/-- An integer of 64 bits is less than 2^63 in absolute value, unless it is -2^63. -/
theorem natAbs_toInt (i : Int64) :
    (i.toInt.natAbs < signedLimit ∧ i ≠ Int64.minValue) ∨
      (i = Int64.minValue ∧ i.toInt = -signedLimit) := by
  have hlow := i.le_toInt
  have hhigh := i.toInt_lt
  have hlimit : signedLimit = 9223372036854775808 := rfl
  have hmin : Int64.minValue.toInt = -9223372036854775808 := by decide
  by_cases h : i = Int64.minValue
  · exact .inr ⟨h, by rw [h, hmin, hlimit]; rfl⟩
  · refine .inl ⟨?_, h⟩
    have hne : i.toInt ≠ -9223372036854775808 := fun heq => h (Int64.toInt.inj (heq.trans hmin.symm))
    omega

namespace Value

/-- The number that an integer or a finite decimal stands for. -/
def rational? : Value → Option ℚ
  | integer i => some i.toInt
  | decimal x => if x.isFinite then some x.toRat else none
  | _ => none

/-- One value is -2^63 as an integer and the other one -2^63 as a decimal. -/
def SplitsLowest (a b : Value) : Prop :=
  (a = .integer Int64.minValue ∧ b = .decimal .lowestInteger) ∨
    (a = .decimal .lowestInteger ∧ b = .integer Int64.minValue)

theorem SplitsLowest.symm {a b : Value} (h : a.SplitsLowest b) : b.SplitsLowest a :=
  h.elim (fun ⟨ha, hb⟩ => .inr ⟨hb, ha⟩) fun ⟨ha, hb⟩ => .inl ⟨hb, ha⟩

variable {a b : Value} {p q : ℚ} {x y : Binary64} {i : Int64}

theorem rational?_decimal_eq_some :
    (decimal x).rational? = some q ↔ x.isFinite = true ∧ x.toRat = q := by
  simp [rational?]

/-- A decimal has the identity of an integer if it is whole and less than 2^63 in absolute value,
    and else one of its own. -/
theorem key?_decimal (hx : x.isFinite = true) :
    (∃ n : Int, x.toRat = n ∧ n.natAbs < signedLimit ∧ (decimal x).key? = some (.integer n)) ∨
      ((∀ n : Int, x.toRat = n → signedLimit ≤ n.natAbs) ∧
        (decimal x).key? = some (.decimal x)) := by
  rcases hwhole : x.whole? with _ | n
  · refine .inr ⟨fun n hn => ?_, by simp [key?, hwhole]⟩
    rw [(Binary64.whole?_eq_some_iff hx).2 hn] at hwhole
    cases hwhole
  · have hn := (Binary64.whole?_eq_some_iff hx).1 hwhole
    by_cases hlt : n.natAbs < signedLimit
    · exact .inl ⟨n, hn, hlt, by simp [key?, hwhole, hlt]⟩
    · refine .inr ⟨fun m hm => ?_, by simp [key?, hwhole, hlt]⟩
      obtain rfl : m = n := Int.cast_injective (α := ℚ) (hm.symm.trans hn)
      exact Nat.not_lt.1 hlt

theorem key?_integer_eq_decimal_iff (hx : x.isFinite = true) :
    (integer i).key? = (decimal x).key? ↔
      (i.toInt : ℚ) = x.toRat ∧ ¬ (integer i).SplitsLowest (decimal x) := by
  rcases key?_decimal hx with ⟨n, hn, hlt, hkey⟩ | ⟨hlarge, hkey⟩
  · have hsplit : ¬ (integer i).SplitsLowest (decimal x) := by
      rintro (⟨-, hlowest⟩ | ⟨hinteger, -⟩)
      · obtain rfl : x = .lowestInteger := Value.decimal.inj hlowest
        obtain rfl : n = -signedLimit :=
          Int.cast_injective (α := ℚ) (hn.symm.trans Binary64.toRat_lowestInteger)
        omega
      · cases hinteger
    rw [hkey, hn, and_iff_left hsplit, Int.cast_inj]
    simp [key?]
  · rw [hkey]
    refine iff_of_false (by simp [key?]) ?_
    rintro ⟨hsame, hsplit⟩
    have habs := hlarge _ hsame.symm
    rcases natAbs_toInt i with ⟨hlt, -⟩ | ⟨rfl, hlowest⟩
    · omega
    · -- the integer is -2^63, and so is the decimal
      rw [hlowest, ← Binary64.toRat_lowestInteger] at hsame
      refine hsplit (.inl ⟨rfl, congrArg decimal (Binary64.eq_of_toRat_eq hsame ?_).symm⟩)
      rw [Binary64.toRat_lowestInteger]
      exact Int.cast_ne_zero.2 (by decide)

theorem key?_decimal_eq_decimal_iff (hx : x.isFinite = true) (hy : y.isFinite = true) :
    (decimal x).key? = (decimal y).key? ↔ x.toRat = y.toRat := by
  rcases key?_decimal hx with ⟨m, hm, hmlt, hkey⟩ | ⟨hlarge, hkey⟩ <;>
    rcases key?_decimal hy with ⟨n, hn, hnlt, hkey'⟩ | ⟨hlarge', hkey'⟩ <;> rw [hkey, hkey']
  · rw [hm, hn, Int.cast_inj]
    simp
  · refine iff_of_false (by simp) fun hsame => ?_
    exact absurd (hlarge' m (hsame.symm.trans hm)) (Nat.not_le.2 hmlt)
  · refine iff_of_false (by simp) fun hsame => ?_
    exact absurd (hlarge n (hsame.trans hn)) (Nat.not_le.2 hnlt)
  · rw [Option.some.injEq, UniqueKey.decimal.injEq]
    refine ⟨fun h => h ▸ rfl, fun hsame => Binary64.eq_of_toRat_eq hsame fun hzero => ?_⟩
    exact absurd (hlarge 0 (by simpa using hzero)) (by decide)

/-- Two values that stand for numbers have the same identity if and only if these are the same
    number, not written in the two ways of -2^63. -/
theorem key?_eq_key?_iff (ha : a.rational? = some p) (hb : b.rational? = some q) :
    a.key? = b.key? ↔ p = q ∧ ¬ a.SplitsLowest b := by
  cases a with
  | integer i =>
    obtain rfl := Option.some.inj ha
    cases b with
    | integer j =>
      obtain rfl := Option.some.inj hb
      simp [key?, SplitsLowest]
    | decimal y =>
      obtain ⟨hy, rfl⟩ := rational?_decimal_eq_some.1 hb
      exact key?_integer_eq_decimal_iff hy
    | null | text | boolean | instant => cases hb
  | decimal x =>
    obtain ⟨hx, rfl⟩ := rational?_decimal_eq_some.1 ha
    cases b with
    | integer j =>
      obtain rfl := Option.some.inj hb
      rw [eq_comm, key?_integer_eq_decimal_iff hx, eq_comm]
      exact and_congr_right fun _ => not_congr ⟨SplitsLowest.symm, SplitsLowest.symm⟩
    | decimal y =>
      obtain ⟨hy, rfl⟩ := rational?_decimal_eq_some.1 hb
      rw [key?_decimal_eq_decimal_iff hx hy]
      simp [SplitsLowest]
    | null | text | boolean | instant => cases hb
  | null | text | boolean | instant => cases ha

theorem exists_key?_of_rational? (ha : a.rational? = some p) : ∃ key, a.key? = some key := by
  cases a with
  | integer i => exact ⟨_, rfl⟩
  | decimal x =>
    obtain ⟨hx, -⟩ := rational?_decimal_eq_some.1 ha
    exact (key?_decimal hx).elim (fun ⟨_, _, _, hkey⟩ => ⟨_, hkey⟩) fun ⟨_, hkey⟩ => ⟨_, hkey⟩
  | null | text | boolean | instant => cases ha

end Value

/-! ## Unique columns -/

/-- **Unique means different numbers, -2^63 apart.**  Two integers or finite decimals have the same
    identity if and only if they are the same number, unless one is -2^63 as an integer and the
    other one -2^63 as a decimal.  So in a unique or primary key column of a reached store, two rows
    hold the same number only if it is -2^63, written in these two ways. -/
theorem numeric_keys {s : Store} (hs : s.Reachable) :
    (∀ (a b : Value) (p q : ℚ), a.rational? = some p → b.rational? = some q →
      (a.key? = b.key? ↔ p = q ∧ ¬ a.SplitsLowest b)) ∧
    ∀ t ∈ s.tables, ∀ (i : Nat) (c : Column),
      t.schema.columns[i]? = some c → (c.unique = true ∨ c.primaryKey = true) →
      t.rows.Pairwise fun old new => ∀ q : ℚ, (old.cell i).rational? = some q →
        (new.cell i).rational? = some q → (old.cell i).SplitsLowest (new.cell i) := by
  refine ⟨fun a b p q ha hb => Value.key?_eq_key?_iff ha hb, fun t ht i c hc hu => ?_⟩
  refine (hs.valid.tables t ht).apart.imp fun {old new} hapart q hold hnew => ?_
  by_contra hsplit
  have hsame := (Value.key?_eq_key?_iff hold hnew).2 ⟨rfl, hsplit⟩
  obtain ⟨key, hkey⟩ := Value.exists_key?_of_rational? hold
  exact hapart i c hc (by simpa [Column.isUnique] using hu) key hkey (hsame ▸ hkey)

/-- A table of numbers, in which a decimal does not repeat an integer. -/
def mixedNumberCalls : List StoreCall :=
  [.create "t" [(Column.ofName "n" .integer).asUnique],
    .insert (fun _ => ⟨"", .date, 0⟩) "t" [.ofCells [("n", .integer 3)]],
    .insert (fun _ => ⟨"", .date, 0⟩) "t" [.ofCells [("n", .decimal (.ofInt 3))]],
    .insert (fun _ => ⟨"", .date, 0⟩) "t" [.ofCells [("n", .decimal (.ofRatio false 7 2))]]]

theorem numeric_keys_mixed :
    let s := runCalls mixedNumberCalls (.ofSettings ⟨.reject, .apply, false, 3⟩
      fun _ => ⟨"", .date, 0⟩)
    s.Reachable ∧ (Value.integer 3).key? = (Value.decimal (.ofInt 3)).key? ∧
      ∃ t ∈ s.tables, t.rows = [[.integer 3], [.decimal (.ofRatio false 7 2)]] ∧
        t.rows.Pairwise fun old new => (old.cell 0).rational? = some 3 →
          (new.cell 0).rational? = some 3 → (old.cell 0).SplitsLowest (new.cell 0) := by
  intro s
  have htables : s.tables.map (fun t => (t.schema.columns, t.rows)) =
      [([(Column.ofName "n" .integer).asUnique],
        [[.integer 3], [.decimal (.ofRatio false 7 2)]])] := by decide +kernel
  obtain ⟨t, hsingle, ht⟩ := List.map_eq_singleton_iff.1 htables
  obtain ⟨hcolumns, hrows⟩ := Prod.mk.inj ht
  have hmem : t ∈ s.tables := hsingle ▸ List.mem_singleton_self t
  have hthree : (Binary64.ofInt 3).toRat = 3 :=
    Binary64.toRat_eq_intCast_iff.2 (by decide +kernel)
  have hs : s.Reachable := .runCalls .new _
  obtain ⟨hkeys, hunique⟩ := numeric_keys hs
  refine ⟨hs, ?_, t, hmem, hrows, ?_⟩
  · refine (hkeys _ _ 3 3 rfl (Value.rational?_decimal_eq_some.2 ⟨by decide +kernel, hthree⟩)).2
      ⟨rfl, ?_⟩
    rintro (⟨h, -⟩ | ⟨h, -⟩) <;> cases h
  · exact (hunique t hmem 0 _ (by rw [hcolumns]; rfl) (.inl rfl)).imp fun h => h 3

/-- -2^63 is taken in twice, as an integer and as a decimal. -/
theorem numeric_keys_lowest :
    let run := Store.run ⟨.reject, .apply, false, 3⟩ fun _ => ⟨"", .date, 0⟩
    let created := (run .empty "CREATE TABLE t (id INTEGER PRIMARY KEY)".toList).2
    let inserted := run created
      "INSERT INTO t VALUES (-9223372036854775808), (-9223372036854775808.0)".toList
    inserted.1 = .ok (.affected 2 "2 rows inserted") ∧
      (run inserted.2 "SELECT * FROM t".toList).1 = .ok (.rows
        [⟨[("id", .integer Int64.minValue)]⟩, ⟨[("id", .decimal .lowestInteger)]⟩]) ∧
      (Value.integer Int64.minValue).rational? = (Value.decimal .lowestInteger).rational? ∧
      (Value.integer Int64.minValue).key? ≠ (Value.decimal .lowestInteger).key? := by
  refine ⟨by decide +kernel, by decide +kernel, ?_, by decide +kernel⟩
  have hfinite : Binary64.lowestInteger.isFinite = true := by decide +kernel
  rw [Value.rational?, Value.rational?, if_pos hfinite, Binary64.toRat_lowestInteger]
  rfl

end PocketSql
