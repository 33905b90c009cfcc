/-
  Comparisons of integers in conditions.

  Cells and literals are compared as the binary floating-point numbers nearest to them, so two
  integers that fall together count as equal.

  * `CompareOp.holds_eq_integer`, `CompareOp.holds_lt_integer`, `CompareOp.holds_gt_integer`: what a
    comparison of two integers says of them;
  * `Table.Separates`: no stored integer falls together with another one that it is compared with;
    this is so if the latter has an absolute value below 2^53 (`Table.separates_of_lt`);
  * `comparisons_exact_iff`: under this condition, and under no other, `=`, `<` and `>` keep the
    rows that they should, and a unique column has at most one row for `=`.
-/
import PocketSql.Proofs.Number.Rounding
import PocketSql.Proofs.Store.Success
import PocketSql.Proofs.Store.Validity
import PocketSql.Proofs.Table.Lookup

namespace PocketSql

/-! ## Two integers -/

theorem Value.numbers?_integer (a b : Int64) :
    numbers? (.integer a) (.integer b) =
      some (Binary64.ofInt a.toInt, Binary64.ofInt b.toInt) := rfl

namespace CompareOp

variable {a b : Int64}

theorem holds_eq_integer :
    eq.holds (.integer a) (.integer b) = true ↔
      Binary64.ofInt a.toInt = Binary64.ofInt b.toInt := by
  rw [← Binary64.compare?_ofInt_eq]
  simp [holds, Value.isNull, Value.looselyEquals, Value.numbers?_integer, Binary64.equals]

theorem holds_lt_integer :
    lt.holds (.integer a) (.integer b) = true ↔
      a.toInt < b.toInt ∧ Binary64.ofInt a.toInt ≠ Binary64.ofInt b.toInt := by
  rw [← Binary64.compare?_ofInt_lt]
  simp [holds, Value.isNull, Value.isNumeric, Value.compare?, Value.numbers?_integer]

theorem holds_gt_integer :
    gt.holds (.integer a) (.integer b) = true ↔
      b.toInt < a.toInt ∧ Binary64.ofInt a.toInt ≠ Binary64.ofInt b.toInt := by
  rw [← Binary64.compare?_ofInt_gt]
  simp [holds, Value.isNull, Value.isNumeric, Value.compare?, Value.numbers?_integer]

end CompareOp

/-! ## A column of integers -/

namespace Table

variable {t : Table} {column : String} {i : Nat} {k : Int64}

/-- All values stored in a column are integers; some may be absent. -/
def HasIntegers (t : Table) (i : Nat) : Prop :=
  ∀ tuple ∈ t.rows, tuple.cell i = .null ∨ ∃ n, tuple.cell i = .integer n

/-- The rows whose integer in a column has a property. -/
def holding (t : Table) (i : Nat) (property : Int → Prop) [DecidablePred property] : List Tuple :=
  t.rows.filter fun tuple =>
    match tuple.cell i with
    | .integer n => property n.toInt
    | _ => false

/-- No other integer stored in a column falls together with a given one. -/
def Separates (t : Table) (i : Nat) (k : Int64) : Prop :=
  ∀ tuple ∈ t.rows, ∀ n, tuple.cell i = .integer n →
    Binary64.ofInt n.toInt = Binary64.ofInt k.toInt → n = k

/-- A comparison of a column with an integer keeps the rows that should be kept. -/
structure ComparesExactly (t : Table) (column : String) (i : Nat) (k : Int64) : Prop where
  eq : t.kept (.compare column .eq (.integer k)) = t.holding i (· = k.toInt)
  lt : t.kept (.compare column .lt (.integer k)) = t.holding i (· < k.toInt)
  gt : t.kept (.compare column .gt (.integer k)) = t.holding i (k.toInt < ·)

theorem separates_of_lt (h : k.toInt.natAbs < twoPow 53) : t.Separates i k := by
  intro tuple _ n _ heq
  exact Int64.toInt_inj.1 ((Binary64.ofInt_eq_iff h).1 heq)

/-- A comparison that says something of two integers keeps the rows of whose integers it says so. -/
theorem kept_eq_holding (hi : t.schema.position? column = some i) (hint : t.HasIntegers i)
    {op : CompareOp} {property : Int → Prop} [DecidablePred property]
    (h : ∀ n : Int64, op.holds (.integer n) (.integer k) = true ↔ property n.toInt) :
    t.kept (.compare column op (.integer k)) = t.holding i property := by
  refine List.filter_congr fun tuple htuple => ?_
  have hcell := Schema.getD_rowOf hi tuple
  rcases hint tuple htuple with hnull | ⟨n, hn⟩
  · simp [selects, meets, Predicate.holds, hcell, hnull, CompareOp.holds, Value.isNull]
  · simp only [selects, meets, Predicate.holds, hcell, hn]
    exact Bool.eq_iff_iff.2 ((h n).trans decide_eq_true_iff.symm)

theorem mem_holding {tuple : Tuple} {n : Int64} (htuple : tuple ∈ t.rows)
    (hn : tuple.cell i = .integer n) {property : Int → Prop} [DecidablePred property] :
    tuple ∈ t.holding i property ↔ property n.toInt := by
  simp [holding, htuple, hn]

theorem holding_congr {p q : Int → Prop} [DecidablePred p] [DecidablePred q]
    (h : ∀ tuple ∈ t.rows, ∀ n, tuple.cell i = .integer n → (p n.toInt ↔ q n.toInt)) :
    t.holding i p = t.holding i q := by
  refine List.filter_congr fun tuple htuple => ?_
  split
  · next n hn => simpa using h tuple htuple n hn
  · rfl

/-- `=` keeps the rows whose integers fall together with the given one, ... -/
theorem kept_eq (hi : t.schema.position? column = some i) (hint : t.HasIntegers i) (k : Int64) :
    t.kept (.compare column .eq (.integer k)) =
      t.holding i fun n => Binary64.ofInt n = Binary64.ofInt k.toInt :=
  kept_eq_holding hi hint fun _ => CompareOp.holds_eq_integer

/-- ... `<` those whose integers are less and do not, ... -/
theorem kept_lt (hi : t.schema.position? column = some i) (hint : t.HasIntegers i) (k : Int64) :
    t.kept (.compare column .lt (.integer k)) =
      t.holding i fun n => n < k.toInt ∧ Binary64.ofInt n ≠ Binary64.ofInt k.toInt :=
  kept_eq_holding hi hint fun _ => CompareOp.holds_lt_integer

/-- ... and `>` those whose integers are greater and do not. -/
theorem kept_gt (hi : t.schema.position? column = some i) (hint : t.HasIntegers i) (k : Int64) :
    t.kept (.compare column .gt (.integer k)) =
      t.holding i fun n => k.toInt < n ∧ Binary64.ofInt n ≠ Binary64.ofInt k.toInt :=
  kept_eq_holding hi hint fun _ => CompareOp.holds_gt_integer

theorem comparesExactly_iff (hi : t.schema.position? column = some i) (hint : t.HasIntegers i)
    (k : Int64) : t.ComparesExactly column i k ↔ t.Separates i k := by
  constructor
  · intro h tuple htuple n hn heq
    have hmem : tuple ∈ t.holding i fun n => Binary64.ofInt n = Binary64.ofInt k.toInt :=
      (mem_holding htuple hn).2 heq
    rw [← kept_eq hi hint, h.eq, mem_holding htuple hn] at hmem
    exact Int64.toInt_inj.1 hmem
  · intro h
    refine ⟨?_, ?_, ?_⟩
    · rw [kept_eq hi hint]
      refine holding_congr fun tuple htuple n hn => ⟨fun heq => ?_, fun heq => heq ▸ rfl⟩
      rw [h tuple htuple n hn heq]
    · rw [kept_lt hi hint]
      refine holding_congr fun tuple htuple n hn => ⟨And.left, fun hlt => ⟨hlt, fun heq => ?_⟩⟩
      rw [h tuple htuple n hn heq] at hlt
      omega
    · rw [kept_gt hi hint]
      refine holding_congr fun tuple htuple n hn => ⟨And.left, fun hgt => ⟨hgt, fun heq => ?_⟩⟩
      rw [h tuple htuple n hn heq] at hgt
      omega

/-- In a unique column at most one row holds an integer. -/
theorem length_holding_le_one (hv : t.Valid) {c : Column} (hc : t.schema.columns[i]? = some c)
    (hu : c.isUnique = true) (k : Int64) : (t.holding i (· = k.toInt)).length ≤ 1 := by
  have hpair : (t.holding i (· = k.toInt)).Pairwise t.schema.Apart := hv.apart.filter _
  have hkey : ∀ tuple ∈ t.holding i (· = k.toInt),
      (tuple.cell i).key? = some (.integer k.toInt) := by
    intro tuple htuple
    obtain ⟨-, hcell⟩ := List.mem_filter.1 htuple
    split at hcell
    · next n hn => rw [hn, Value.key?, of_decide_eq_true hcell]
    · cases hcell
  rcases hrows : t.holding i (· = k.toInt) with _ | ⟨a, _ | ⟨b, rest⟩⟩
  · exact Nat.zero_le 1
  · exact Nat.le_refl 1
  · rw [hrows] at hpair hkey
    have hab : t.schema.Apart a b := (List.pairwise_cons.1 hpair).1 b (by simp)
    exact absurd (hkey b (by simp)) (hab i c hc hu _ (hkey a (by simp)))

end Table

/-! ## When comparisons are exact -/

/-- **When comparisons with an integer are exact.**  In a column of integers, `=`, `<` and `>` keep
    the rows that they should exactly if no other stored integer falls together with the given one,
    as is always so below 2^53.  Then a statement with `=` on a unique column shows or affects at
    most one row. -/
theorem comparisons_exact_iff (t : Table) {column : String} {i : Nat}
    (hi : t.schema.position? column = some i) (hint : t.HasIntegers i) (k : Int64) :
    (t.ComparesExactly column i k ↔ t.Separates i k) ∧
    (k.toInt.natAbs < twoPow 53 → t.Separates i k) ∧
    (t.Separates i k → t.Valid → (∃ c, t.schema.columns[i]? = some c ∧ c.isUnique = true) →
      ∀ settings clock statement s outcome, s.require statement.table = .ok t →
        statement.condition = some (.compare column .eq (.integer k)) →
        (Operation.execute settings clock statement s).1 = .ok outcome → outcome.count ≤ 1) := by
  have hiff := Table.comparesExactly_iff hi hint k
  refine ⟨hiff, Table.separates_of_lt, ?_⟩
  rintro hsep hv ⟨c, hc, hu⟩ settings clock statement s outcome ht hcondition h
  have hcount := count_le_of_condition rfl ht hcondition h
  rw [(hiff.2 hsep).eq] at hcount
  have hone := Table.length_holding_le_one hv hc hu k
  omega

/-- A table of keys. -/
def keysTable (keys : List Int64) : Table :=
  ⟨⟨"t", [(Column.ofName "id" .integer).asPrimaryKey], by simp, by decide, by decide⟩,
    keys.map fun key => [.integer key]⟩

theorem keysTable_hasIntegers (keys : List Int64) : (keysTable keys).HasIntegers 0 := by
  intro tuple htuple
  obtain ⟨key, -, rfl⟩ := List.mem_map.1 htuple
  exact .inr ⟨key, rfl⟩

theorem keysTable_comparesExactly :
    (keysTable [24, 25]).ComparesExactly "id" 0 25 ∧
      (Outcome.affected 1 "1 row deleted").count ≤ 1 := by
  have hi : (keysTable [24, 25]).schema.position? "id" = some 0 := rfl
  have hv : (keysTable [24, 25]).Valid :=
    (runCalls_valid [.create "t" [(Column.ofName "id" .integer).asPrimaryKey],
      .insert (fun _ => ⟨"", .date, 0⟩) "t"
        [.ofCells [("id", .integer 24)], .ofCells [("id", .integer 25)]]]
      Store.valid_empty).tables _ (List.mem_singleton.2 rfl)
  obtain ⟨hiff, hsmall, hone⟩ := comparisons_exact_iff _ hi (keysTable_hasIntegers _) 25
  have hsep := hsmall (by decide)
  refine ⟨hiff.2 hsep, hone hsep hv ⟨_, rfl, rfl⟩ ⟨.reject, .apply, false, 3⟩
    (fun _ => ⟨"", .date, 0⟩) (.delete "t" (some (.compare "id" .eq (.integer 25))))
    ⟨[keysTable [24, 25]]⟩ _ rfl rfl ?_⟩
  decide +kernel

/-- 2^53 + 1 lies half way between 2^53 and 2^53 + 2 and falls together with 2^53: the key of one
    row keeps the other row too, and DELETE drops both. -/
theorem keysTable_fall_together :
    (keysTable [9007199254740992, 9007199254740993]).holding 0 (· = 9007199254740993) =
        [[.integer 9007199254740993]] ∧
      (keysTable [9007199254740992, 9007199254740993]).kept
          (.compare "id" .eq (.integer 9007199254740993)) =
        [[.integer 9007199254740992], [.integer 9007199254740993]] ∧
      (Store.run ⟨.reject, .apply, false, 3⟩ (fun _ => ⟨"", .date, 0⟩)
        ⟨[keysTable [9007199254740992, 9007199254740993]]⟩
        "DELETE FROM t WHERE id = 9007199254740993".toList).1 =
          .ok (.affected 2 "2 rows deleted") := by
  decide +kernel

end PocketSql
