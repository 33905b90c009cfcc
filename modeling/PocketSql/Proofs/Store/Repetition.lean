/-
  An UPDATE made twice.

  * `Schema.overwrite_overwrite`: a row that holds what assignments say holds it after them again;
  * `Table.overwritten_overwritten`: so assignments made twice in the rows that satisfy a condition
    change nothing the second time, whichever rows satisfy it by then;
  * `Table.update_again`: nor are they refused, and no row is counted that was not counted before;
  * `update_idempotent`: what this says of an UPDATE in a reached store.
-/
import PocketSql.Proofs.Store.Acceptance

namespace PocketSql

/-! ## Rows -/

theorem Schema.overwrite_overwrite (s : Schema) (assignments : List (String × Value))
    (tuple : Tuple) :
    s.overwrite assignments (s.overwrite assignments tuple) = s.overwrite assignments tuple := by
  refine List.ext_getElem (by simp [overwrite]) fun i hi hi' => ?_
  have hcol : i < s.columns.length := by
    rw [overwrite, List.length_zipWith] at hi'
    exact Nat.lt_of_lt_of_le hi' (Nat.min_le_left _ _)
  simp only [overwrite, List.getElem_zipWith]
  cases lastAssigned assignments s.columns[i].name <;> rfl

/-! ## Tables -/

namespace Table

variable {t t' : Table} {p : Row → Bool} {assignments : List (String × Value)} {n : Nat}

/-- A row that satisfied the condition holds its last values already; one that did not is as it was,
    and still does not. -/
theorem overwritten_overwritten (t : Table) (p : Row → Bool) (assignments : List (String × Value)) :
    ({ t with rows := t.overwritten p assignments } : Table).overwritten p assignments =
      t.overwritten p assignments := by
  unfold overwritten
  rw [List.map_map]
  refine List.map_congr_left fun tuple _ => ?_
  simp only [Function.comp_apply, selects]
  by_cases hp : p (t.schema.rowOf tuple) = true
  · simp only [hp, if_true, Schema.overwrite_overwrite, ite_self]
  · simp only [hp, if_false, Bool.false_eq_true]

theorem countP_overwritten_le (t : Table) (p : Row → Bool)
    (assignments : List (String × Value)) :
    (t.overwritten p assignments).countP (t.selects p) ≤ t.rows.countP (t.selects p) := by
  rw [overwritten, List.countP_map]
  refine List.countP_mono_left fun tuple _ hp => ?_
  cases hold : t.selects p tuple with
  | true => rfl
  | false => simp [hold] at hp

/-- Assignments that were made can be made again, and then leave the table as it is. -/
theorem update_again (hv : t.Valid) (h : t.update p assignments = .ok (n, t')) :
    ∃ m ≤ n, t'.update p assignments = .ok (m, t') := by
  have hv' : t'.Valid := update_valid h hv
  obtain ⟨⟨hdecl, hadm, hpres, hapart⟩, rfl, rfl⟩ := (update_eq_ok_iff hv).1 h
  -- the rows that are checked for repeated keys are those that were checked the first time
  refine ⟨_, countP_overwritten_le t p assignments,
    (update_eq_ok_iff hv').2 ⟨⟨hdecl, hadm, hpres, ?_⟩, rfl, ?_⟩⟩
  · rwa [overwritten_overwritten]
  · rw [overwritten_overwritten]

end Table

/-! ## Stores -/

/-- **UPDATE is idempotent.**  If an applied UPDATE of a table of a reached store succeeds, then made
    again, at any instants, it succeeds and leaves the store as it is, whatever it assigns, whichever
    columns its condition reads, and whether or not the condition is understood.  The second time it
    counts no more rows than the first. -/
theorem update_idempotent {settings : Settings} (hmode : settings.mutationMode = .apply)
    {s s' : Store} (hs : s.Reachable) {clock : Nat → Timestamp} {name : String}
    {assignments : List (String × Value)} {condition : Option Predicate} {outcome : Outcome}
    (h : Operation.execute settings clock (.update name assignments condition) s =
      (.ok outcome, s')) (clock' : Nat → Timestamp) :
    ∃ again, Operation.execute settings clock' (.update name assignments condition) s' =
        (.ok again, s') ∧ again.count ≤ outcome.count := by
  simp only [Operation.execute, hmode, Operation.bind_eq_ok, Operation.update_eq_ok,
    Operation.pure_eq_ok] at h ⊢
  obtain ⟨n, _, ⟨t, settled, t', ht, hsettled, hupdate, rfl⟩, rfl, rfl⟩ := h
  obtain ⟨hmem, hname⟩ := Store.require_eq_ok ht
  have hschema : t'.schema = t.schema := (Table.Becomes.update hupdate).schema_eq
  have hname' : t'.name = name := (congrArg Schema.name hschema).trans hname
  obtain ⟨m, hle, hagain⟩ := Table.update_again (hs.valid.tables t hmem) hupdate
  refine ⟨_, ⟨m, _, ⟨t', settled, t', Store.require_put ht hname', ?_, hagain, ?_⟩, rfl, rfl⟩, hle⟩
  · rwa [hschema]
  · exact Store.put_put rfl

/-- A row that is moved away from the key that it was found by is not found again. -/
theorem update_idempotent_moved :
    let s := runCalls ownKeyCalls (.ofSettings ⟨.reject, .apply, false, 3⟩
      fun _ => ⟨"", .date, 0⟩)
    let run := Operation.execute ⟨.reject, .apply, false, 3⟩ (fun _ => ⟨"", .date, 0⟩)
      (.update "t" [("n", .integer 9)] (some (.compare "n" .eq (.integer 6))))
    (run s).1 = .ok (.affected 1 "1 row updated") ∧
      run (run s).2 = (.ok (.affected 0 "0 rows updated"), (run s).2) := by
  intro s run
  have hs : s.Reachable := .runCalls .new _
  have hfirst : (run s).1 = .ok (.affected 1 "1 row updated") := by decide +kernel
  have hsecond : (run (run s).2).1 = .ok (.affected 0 "0 rows updated") := by decide +kernel
  obtain ⟨again, hagain, -⟩ :=
    update_idempotent rfl hs (Prod.fst_eq_iff.1 hfirst) fun _ => ⟨"", .date, 0⟩
  obtain rfl := Except.ok.inj ((congrArg Prod.fst hagain).symm.trans hsecond)
  exact ⟨hfirst, hagain⟩

end PocketSql
