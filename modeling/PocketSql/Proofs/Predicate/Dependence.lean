/-
  What a condition looks at.

  * `Predicate.holds_congr`: rows that hold the same in the columns of a condition satisfy it alike;
  * `Predicate.verdict?` says whether a row satisfies a condition if the row has all of its columns,
    and nothing else; `Predicate.verdict?_eq_some_iff`: it then says what `holds` says;
  * `Table.verdicts` says of each row in its place whether it satisfies a condition;
    `Table.verdicts_update`: assignments to other columns change none of this;
  * `condition_reads_columns`: what this says of UPDATE and of stored rows in a reached store.
-/
import PocketSql.Proofs.Store.Change
import PocketSql.Proofs.Store.Success
import PocketSql.Proofs.Store.Validity
import PocketSql.Proofs.Table.Cells

namespace PocketSql

/-! ## Rows -/

namespace Predicate

variable {p : Predicate} {row : Row} {verdict : Bool}

/-- Rows that hold the same in the columns of a condition satisfy it alike; a column that is not
    there counts as one without a value. -/
theorem holds_congr {a b : Row} (h : ∀ name ∈ p.columns, a.getD name = b.getD name) :
    p.holds a = p.holds b := by
  induction p with
  | compare column op value => rw [holds, holds, h column List.mem_cons_self]
  | isNull column negated => rw [holds, holds, h column List.mem_cons_self]
  | and left right ihl ihr =>
    rw [holds, holds, ihl fun name hname => h name (List.mem_append_left _ hname),
      ihr fun name hname => h name (List.mem_append_right _ hname)]
  | or left right ihl ihr =>
    rw [holds, holds, ihl fun name hname => h name (List.mem_append_left _ hname),
      ihr fun name hname => h name (List.mem_append_right _ hname)]
  | not inner ih => rw [holds, holds, ih h]
  | unsupported text => rfl

/-- Whether a row satisfies a condition, if it has every column that the condition names.  Both
    parts of a connective are looked at, also where the first one decides. -/
def verdict? (row : Row) : Predicate → Option Bool
  | compare column op value => do
    let cell ← row.get? column
    return op.holds cell value
  | isNull column negated => do
    let cell ← row.get? column
    return cell.isNull != negated
  | and left right => do
    let first ← left.verdict? row
    let second ← right.verdict? row
    return first && second
  | or left right => do
    let first ← left.verdict? row
    let second ← right.verdict? row
    return first || second
  | not inner => do
    let verdict ← inner.verdict? row
    return !verdict
  | unsupported _ => return true

/-- Two parts that have a verdict where their columns are there have one together where all are. -/
theorem both_eq_some_iff {first second : Option Bool} {a b : Bool} {A B : Prop}
    (hfirst : ∀ x, first = some x ↔ A ∧ a = x) (hsecond : ∀ y, second = some y ↔ B ∧ b = y)
    (join : Bool → Bool → Bool) :
    (first.bind fun x => second.bind fun y => some (join x y)) = some verdict ↔
      (A ∧ B) ∧ join a b = verdict := by
  simp only [Option.bind_eq_some_iff, hfirst, hsecond, Option.some.injEq]
  constructor
  · rintro ⟨_, ⟨hA, rfl⟩, _, ⟨hB, rfl⟩, h⟩
    exact ⟨⟨hA, hB⟩, h⟩
  · rintro ⟨⟨hA, hB⟩, h⟩
    exact ⟨a, ⟨hA, rfl⟩, b, ⟨hB, rfl⟩, h⟩

/-- There is a verdict exactly if no column is missing, and it is that of the evaluation in which a
    missing column counts as one without a value. -/
theorem verdict?_eq_some_iff :
    p.verdict? row = some verdict ↔
      (∀ name ∈ p.columns, name ∈ row.names) ∧ p.holds row = verdict := by
  induction p generalizing verdict with
  | compare column op value =>
    cases hcell : row.get? column <;>
      simp [verdict?, holds, columns, Row.mem_names_iff, Row.getD, hcell]
  | isNull column negated =>
    cases hcell : row.get? column <;>
      simp [verdict?, holds, columns, Row.mem_names_iff, Row.getD, hcell]
  | and left right ihl ihr =>
    rw [columns, List.forall_mem_append]
    exact both_eq_some_iff (fun _ => ihl) (fun _ => ihr) (· && ·)
  | or left right ihl ihr =>
    rw [columns, List.forall_mem_append]
    exact both_eq_some_iff (fun _ => ihl) (fun _ => ihr) (· || ·)
  | not inner ih =>
    rw [columns, holds, Bool.not_eq_eq_eq_not, ← ih]
    cases hfound : inner.verdict? row <;> simp [verdict?, hfound, Bool.not_eq_eq_eq_not]
  | unsupported text => simp [verdict?, holds, columns]

end Predicate

/-! ## Tables -/

namespace Table

variable {t t' : Table} {p : Predicate}

/-- Whether each row, in its place, satisfies a condition. -/
def verdicts (t : Table) (p : Predicate) : List Bool :=
  t.scan.map fun row => p.holds row

/-- Assignments to other columns than those of a condition leave the rows that satisfy it where they
    stand, whichever rows they are made in. -/
theorem verdicts_update {q : Row → Bool} {assignments : List (String × Value)} {n : Nat}
    (hv : t.Valid) (h : t.update q assignments = .ok (n, t'))
    (hfree : ∀ a ∈ assignments, a.1 ∉ p.columns) : t'.verdicts p = t.verdicts p := by
  obtain ⟨places, hres, -, -, rfl⟩ := update_eq_ok.1 h
  simp only [verdicts, scan, assigned, List.map_map]
  refine List.map_congr_left fun tuple htuple => ?_
  simp only [Function.comp_apply]
  split
  · refine Predicate.holds_congr fun name hname => ?_
    refine Schema.getD_rowOf_assign hres (hv.fits tuple htuple).length_eq ?_
    rw [Option.eq_none_iff_forall_ne_some]
    exact fun v hlast => hfree _ (mem_of_lastAssigned hlast) hname
  · rfl

/-- A stored row has every column of a condition exactly if the condition passes the check that it
    names declared columns only. -/
theorem requireAll_iff_verdict? {row : Row} (hv : t.Valid) (hrow : row ∈ t.scan) :
    t.schema.requireAll p.columns = .ok () ↔ p.verdict? row = some (p.holds row) := by
  obtain ⟨tuple, htuple, rfl⟩ := List.mem_map.1 hrow
  rw [Schema.requireAll_eq_ok_iff, Predicate.verdict?_eq_some_iff,
    Schema.names_rowOf (hv.fits tuple htuple).length_eq, and_iff_left rfl]

end Table

/-! ## Stores -/

/-- **A condition reads its columns only.**  Rows that hold the same, or nothing, in each column that
    a condition names satisfy it alike.  So in a reached store an UPDATE that assigns none of these
    columns, whatever its own condition is and whether or not it is carried out, leaves the rows that
    satisfy the condition where they stood.  The check of the column names passes exactly if stored
    rows have all that the condition looks at: then no missing column is ever taken for one without
    a value. -/
theorem condition_reads_columns (p : Predicate) :
    (∀ a b : Row, (∀ name ∈ p.columns, a.get? name = b.get? name) → p.holds a = p.holds b) ∧
    ∀ s : Store, s.Reachable → ∀ name t, s.require name = .ok t →
      (∀ settings clock assignments condition, (∀ a ∈ assignments, a.1 ∉ p.columns) →
        ∃ t', (Operation.execute settings clock (.update name assignments condition) s).2.require
            name = .ok t' ∧ t'.schema = t.schema ∧ t'.verdicts p = t.verdicts p) ∧
      ∀ row ∈ t.scan,
        (t.schema.requireAll p.columns = .ok () ↔ p.verdict? row = some (p.holds row)) := by
  refine ⟨fun a b hsame => ?_, fun s hs name t ht => ⟨?_, fun row hrow => ?_⟩⟩
  · exact Predicate.holds_congr fun name hname => congrArg (·.getD .null) (hsame name hname)
  · obtain ⟨hmem, hname⟩ := Store.require_eq_ok ht
    intro settings clock assignments condition hfree
    rcases Operation.execute_update_leaves settings clock name assignments condition s with
      hafter | ⟨u, q, n, t', hu, hupdate, hafter⟩
    · exact ⟨t, hafter.symm ▸ ht, rfl, rfl⟩
    · obtain rfl : t = u := Except.ok.inj (ht.symm.trans hu)
      have hbecomes : t.Becomes t' := .update hupdate
      refine ⟨t', ?_, hbecomes.schema_eq,
        Table.verdicts_update (hs.valid.tables t hmem) hupdate hfree⟩
      rw [hafter]
      exact Store.require_put ht (hbecomes.name_eq.trans hname)
  · exact Table.requireAll_iff_verdict? (hs.valid.tables t (Store.require_eq_ok ht).1) hrow

/-- Rows with and without a number and a note. -/
def notedCalls : List StoreCall :=
  [.create "t" [Column.ofName "n" .integer, Column.ofName "note" .text],
    .insert (fun _ => ⟨"", .date, 0⟩) "t" [.ofCells [("n", .integer 1)],
      .ofCells [("note", .text "x")], .ofCells [("n", .integer 3), ("note", .text "x")]]]

/-- Rows are found by their notes and lose them, but not their places among the numbers. -/
theorem condition_reads_columns_noted :
    let settings : Settings := ⟨.reject, .apply, false, 3⟩
    let clock := fun _ : Nat => (⟨"", .date, 0⟩ : Timestamp)
    let s := runCalls notedCalls (.ofSettings settings clock)
    let p : Predicate := .or (.compare "n" .gt (.integer 2)) (.isNull "n" false)
    let run := Operation.execute settings clock
      (.update "t" [("note", .null)] (some (.compare "note" .eq (.text "x")))) s
    p.holds (.ofCells [("n", .integer 3), ("note", .null)]) = p.holds ⟨[("n", .integer 3)]⟩ ∧
      run.1 = .ok (.affected 2 "2 rows updated") ∧
      ∃ t t', s.require "t" = .ok t ∧ run.2.require "t" = .ok t' ∧
        t.verdicts p = [false, true, true] ∧ t'.verdicts p = t.verdicts p ∧
        ∀ row ∈ t.scan, p.verdict? row = some (p.holds row) := by
  intro settings clock s p run
  obtain ⟨hrows, hstores⟩ := condition_reads_columns p
  have hs : s.Reachable := .runCalls .new _
  have ht : s.require "t" = .ok _ := rfl
  obtain ⟨hupdates, hverdict⟩ := hstores s hs "t" _ ht
  obtain ⟨t', ht', -, hsame⟩ := hupdates settings clock [("note", .null)]
    (some (.compare "note" .eq (.text "x"))) (by decide)
  exact ⟨hrows _ _ (by decide), by decide +kernel, _, t', ht, ht', by decide +kernel, hsame,
    fun row hrow => (hverdict row hrow).1 (by decide +kernel)⟩

end PocketSql
