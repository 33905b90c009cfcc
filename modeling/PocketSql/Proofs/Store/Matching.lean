/-
  The rows that satisfy a condition, for SELECT, UPDATE and DELETE.

  * `Table.matching` are the rows that satisfy a condition; `Operation.select_where`: a SELECT of
    all columns shows them;
  * `Operation.delete_where`, `Operation.update_where`: what DELETE and UPDATE do when they are
    applied;
  * `Table.ChangedBy`: a table of which only the rows that satisfy a condition have changed, and
    these only by assignments; `Table.changedBy_of_update`;
  * `changes_match_select`: UPDATE and DELETE affect the rows that SELECT shows.
-/
import Mathlib.Data.Prod.Basic
import PocketSql.Proofs.Store.Change
import PocketSql.Proofs.Store.Success
import PocketSql.Proofs.Store.Validity
import PocketSql.Proofs.Table.Assignment

namespace PocketSql

/-! ## Conditions that are understood -/

theorem resolveCondition_of_understood {policy : PredicatePolicy} {s : Schema} {p : Predicate}
    (hp : p.unsupported? = none) (hcols : ∀ column ∈ p.columns, column ∈ s.names) :
    resolveCondition policy s (some p) = .ok (some p) := by
  simp [resolveCondition, hp, Schema.requireAll_eq_ok_iff.2 hcols, bind, Except.bind]

/-- `SELECT * FROM table WHERE p`. -/
def Query.allWhere (table : String) (p : Predicate) : Query :=
  ⟨.all, table, some p, [], none, none⟩

namespace Table

/-- The rows that satisfy a condition, in order. -/
def matching (t : Table) (p : Predicate) : List Row :=
  t.scan.filter fun row => p.holds row

theorem matching_eq_map (t : Table) (p : Predicate) :
    t.matching p = (t.kept p).map t.schema.rowOf :=
  List.filter_map

theorem length_matching (t : Table) (p : Predicate) :
    (t.matching p).length = t.rows.countP (t.selects (meets (some p))) := by
  rw [matching_eq_map, List.length_map, length_kept]

theorem scan_delete (t : Table) (p : Predicate) :
    (t.delete (meets (some p))).2.scan = t.matching (.not p) :=
  (matching_eq_map t (.not p)).symm

/-! ## Rows after assignments -/

/-- The rows of a table stand where they stood; one that does not satisfy a condition is as it was,
    and one that does holds in each column the last value assigned to it, fitted to the type of the
    column, or what it held. -/
structure ChangedBy (t : Table) (p : Predicate) (assignments : List (String × Value)) (t' : Table) :
    Prop where
  length_eq : t'.rows.length = t.rows.length
  unmatched : ∀ (j : Nat) (old : Tuple), t.rows[j]? = some old →
    p.holds (t.schema.rowOf old) = false → t'.rows[j]? = some old
  matched : ∀ (j : Nat) (old : Tuple), t.rows[j]? = some old →
    p.holds (t.schema.rowOf old) = true →
    ∃ new, t'.rows[j]? = some new ∧ new.length = old.length ∧
      ∀ (i : Nat) (c : Column), t.schema.columns[i]? = some c →
        (∀ v, lastAssigned assignments c.name = some v →
          c.type.coerce c.name v = .ok (new.cell i)) ∧
        (lastAssigned assignments c.name = none → new.cell i = old.cell i)

theorem length_assign (tuple : Tuple) (places : List (Nat × Value)) :
    (tuple.assign places).length = tuple.length := by
  induction places generalizing tuple with
  | nil => rfl
  | cons place places ih => exact (ih _).trans (List.length_set ..)

theorem changedBy_of_update {t t' : Table} {p : Predicate} {assignments : List (String × Value)}
    {n : Nat} (hv : t.Valid) (h : t.update (meets (some p)) assignments = .ok (n, t')) :
    t.ChangedBy p assignments t' := by
  obtain ⟨places, hres, -, -, rfl⟩ := update_eq_ok.1 h
  refine ⟨List.length_map _, fun j old hold hp => ?_, fun j old hold hp => ?_⟩
  · simp [assigned, hold, selects, meets, hp]
  · refine ⟨old.assign places, by simp [assigned, hold, selects, meets, hp],
      length_assign old places, fun i c hc => ?_⟩
    exact Schema.cell_assign hres (hv.fits old (List.mem_of_getElem? hold)).length_eq hc

end Table

/-! ## Statements -/

namespace Operation

variable {settings : Settings} {s : Store} {name : String} {t : Table} {p : Predicate}

theorem select_where (ht : s.require name = .ok t) (hp : p.unsupported? = none)
    (hcols : ∀ column ∈ p.columns, column ∈ t.schema.names) (clock : Nat → Timestamp) :
    execute settings clock (.select (.allWhere name p)) s = (.ok (.rows (t.matching p)), s) := by
  have hselect : s.select settings (.allWhere name p) = .ok (t.matching p) := by
    simp only [Store.select, Query.allWhere, PocketSql.bind_eq_ok, Projection.names, List.map_nil]
    refine ⟨t, ht, (), rfl, (), rfl, some p, resolveCondition_of_understood hp hcols, _,
      sortRows_nil _, ?_⟩
    exact congrArg Except.ok (List.map_id' _)
  exact read_bind_ok hselect _

theorem delete_where (hmode : settings.mutationMode = .apply) (ht : s.require name = .ok t)
    (hp : p.unsupported? = none) (hcols : ∀ column ∈ p.columns, column ∈ t.schema.names)
    (clock : Nat → Timestamp) :
    execute settings clock (.delete name (some p)) s =
      (.ok (.affected (t.matching p).length (countMessage (t.matching p).length "deleted")),
        s.put (t.delete (meets (some p))).2) := by
  simp only [execute, hmode, bind_eq_ok, delete_eq_ok, pure_eq_ok]
  refine ⟨_, _, ⟨t, some p, ht, resolveCondition_of_understood hp hcols, ?_, rfl⟩, rfl, rfl⟩
  rw [Table.delete_fst, Table.length_matching]

theorem update_where {assignments : List (String × Value)} {outcome : Outcome} {s' : Store}
    {clock : Nat → Timestamp} (hmode : settings.mutationMode = .apply)
    (ht : s.require name = .ok t) (hp : p.unsupported? = none)
    (h : execute settings clock (.update name assignments (some p)) s = (.ok outcome, s')) :
    outcome = .affected (t.matching p).length (countMessage (t.matching p).length "updated") ∧
      ∃ t', t.update (meets (some p)) assignments = .ok ((t.matching p).length, t') ∧
        s' = s.put t' := by
  simp only [execute, hmode, bind_eq_ok, update_eq_ok, pure_eq_ok] at h
  obtain ⟨n, _, ⟨u, settled, t', hu, hsettled, hupd, rfl⟩, rfl, rfl⟩ := h
  obtain rfl : t = u := Except.ok.inj (ht.symm.trans hu)
  rw [resolveCondition_eq_ok hp hsettled] at hupd
  have hn : n = (t.matching p).length := by
    obtain ⟨_, -, -, rfl, -⟩ := Table.update_eq_ok.1 hupd
    rw [Table.length_matching]
  rw [hn] at hupd ⊢
  exact ⟨rfl, t', hupd, rfl⟩

end Operation

/-- **Applied changes affect the rows that SELECT shows.**  On a table of a reached store, with a
    condition that is understood and reads declared columns, DELETE counts the rows that SELECT
    shows and leaves those that SELECT with the negated condition shows, in their order.  An UPDATE
    that succeeds counts the same rows, and changes these, where they stand, by its assignments and
    no others. -/
theorem changes_match_select {settings : Settings} (hmode : settings.mutationMode = .apply)
    {s : Store} (hs : s.Reachable) {name : String} {t : Table} (ht : s.require name = .ok t)
    {p : Predicate} (hp : p.unsupported? = none)
    (hcols : ∀ column ∈ p.columns, column ∈ t.schema.names) (clock : Nat → Timestamp) :
    ∃ shown others,
      Operation.execute settings clock (.select (.allWhere name p)) s = (.ok (.rows shown), s) ∧
      shown = t.matching p ∧
      Operation.execute settings clock (.select (.allWhere name (.not p))) s =
        (.ok (.rows others), s) ∧
      (∃ after t', Operation.execute settings clock (.delete name (some p)) s =
          (.ok (.affected shown.length (countMessage shown.length "deleted")), after) ∧
        after.require name = .ok t' ∧ t'.schema = t.schema ∧ t'.scan = others) ∧
      ∀ assignments outcome after,
        Operation.execute settings clock (.update name assignments (some p)) s =
          (.ok outcome, after) →
        outcome = .affected shown.length (countMessage shown.length "updated") ∧
        ∃ t', after.require name = .ok t' ∧ t'.schema = t.schema ∧
          t.ChangedBy p assignments t' := by
  have hname := (Store.require_eq_ok ht).2
  have hnot : Operation.execute settings clock (.select (.allWhere name (.not p))) s = _ :=
    Operation.select_where (p := .not p) ht hp hcols clock
  refine ⟨_, _, Operation.select_where ht hp hcols clock, rfl, hnot, ?_, ?_⟩
  · exact ⟨_, _, Operation.delete_where hmode ht hp hcols clock, Store.require_put ht hname, rfl,
      Table.scan_delete t p⟩
  · intro assignments outcome after h
    obtain ⟨houtcome, t', hupd, rfl⟩ := Operation.update_where hmode ht hp h
    have hschema : t'.schema = t.schema := (Table.Becomes.update hupd).schema_eq
    have hv : t.Valid := hs.valid.tables t (Store.require_eq_ok ht).1
    exact ⟨houtcome, t', Store.require_put ht ((congrArg Schema.name hschema).trans hname),
      hschema, Table.changedBy_of_update hv hupd⟩

/-- A table with an absent value between two numbers. -/
def gapCalls : List StoreCall :=
  [.create "t" [Column.ofName "n" .integer],
    .insert (fun _ => ⟨"", .date, 0⟩) "t"
      [.ofCells [("n", .integer 1)], .ofCells [("n", .null)], .ofCells [("n", .integer 3)]]]

/-- No comparison holds of the absent value, so that a negated one does. -/
theorem changes_match_select_gap :
    let s := runCalls gapCalls (.ofSettings ⟨.reject, .apply, false, 3⟩ fun _ => ⟨"", .date, 0⟩)
    let run := fun statement => Operation.execute ⟨.reject, .apply, false, 3⟩
      (fun _ => ⟨"", .date, 0⟩) statement s
    let p : Predicate := .not (.compare "n" .gt (.integer 1))
    (run (.select (.allWhere "t" p))).1 =
        .ok (.rows [⟨[("n", .integer 1)]⟩, ⟨[("n", .null)]⟩]) ∧
      (run (.delete "t" (some p))).1 = .ok (.affected 2 "2 rows deleted") ∧
      ∃ t t', s.require "t" = .ok t ∧ t.ChangedBy p [("n", .text "7"), ("n", .integer 8)] t' := by
  intro s run p
  have hmode : (⟨.reject, .apply, false, 3⟩ : Settings).mutationMode = .apply := rfl
  have hs : s.Reachable := .runCalls .new _
  have ht : s.require "t" = .ok _ := rfl
  obtain ⟨shown, others, hselect, -, -, ⟨after, t', hdelete, -⟩, hupdate⟩ :=
    changes_match_select hmode hs ht (p := p) rfl (by decide) fun _ => ⟨"", .date, 0⟩
  have hshown : (run (.select (.allWhere "t" p))).1 =
      .ok (.rows [⟨[("n", .integer 1)]⟩, ⟨[("n", .null)]⟩]) := by decide +kernel
  have hcount : (run (.update "t" [("n", .text "7"), ("n", .integer 8)] (some p))).1 =
      .ok (.affected 2 "2 rows updated") := by decide +kernel
  obtain ⟨-, u, -, -, hchanged⟩ := hupdate _ _ _ (Prod.fst_eq_iff.1 hcount)
  obtain rfl := Outcome.rows.inj (Except.ok.inj ((congrArg Prod.fst hselect).symm.trans hshown))
  exact ⟨hshown, congrArg Prod.fst hdelete, _, u, ht, hchanged⟩

end PocketSql
