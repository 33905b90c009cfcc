/-
  INSERT and UPDATE refuse exactly what breaks a rule.

  * `Schema.overwrite`, `Table.overwritten`: rows after assignments when nothing is checked;
  * `Table.AllowsUpdate`: what assignments have to satisfy, said of the rows as they would be;
  * `Schema.exists_resolve_iff`, `Table.update_eq_ok_iff`: the checks of UPDATE pass exactly then;
  * `accepts_exactly`: with `Table.insertRows_eq_ok_iff`, what this says of a valid store.
-/
import PocketSql.Proofs.Store.Completion
import PocketSql.Proofs.Store.Matching

namespace PocketSql

/-! ## Rows after assignments -/

/-- A stored row after assignments: of two to one column the later one counts. -/
def Schema.overwrite (s : Schema) (assignments : List (String × Value)) (tuple : Tuple) : Tuple :=
  List.zipWith
    (fun c old => ((lastAssigned assignments c.name).map (c.type.fitted c.name)).getD old)
    s.columns tuple

namespace Table

/-- The rows after assignments in those that satisfy a condition. -/
def overwritten (t : Table) (p : Row → Bool) (assignments : List (String × Value)) : List Tuple :=
  t.rows.map fun tuple => if t.selects p tuple then t.schema.overwrite assignments tuple else tuple

/-- Assignments in the rows that satisfy a condition that break no rule of a table. -/
structure AllowsUpdate (t : Table) (p : Row → Bool) (assignments : List (String × Value)) :
    Prop where
  /-- The assignments name columns of the table only. -/
  declared : ∀ a ∈ assignments, a.1 ∈ t.schema.names
  /-- The columns admit the values that they are assigned. -/
  admitted : ∀ a ∈ assignments, ∀ c ∈ t.schema.columns, c.name = a.1 → c.type.Admits c.name a.2
  /-- No column is assigned the absent value that has to have one. -/
  present : ∀ a ∈ assignments, ∀ c ∈ t.schema.columns, c.name = a.1 → a.2 = .null →
    c.nullable = true
  /-- No two rows would share an identity in a unique column. -/
  apart : (t.overwritten p assignments).Pairwise t.schema.Apart

end Table

/-! ## The check of assignments -/

namespace Schema

variable {s : Schema} {assignments : List (String × Value)} {places : List (Nat × Value)}

theorem require_eq_ok_iff {name : String} {c : Column} :
    s.require name = .ok c ↔ c ∈ s.columns ∧ c.name = name := by
  constructor
  · intro h
    obtain ⟨i, hi, hc⟩ := require_eq_ok h
    obtain ⟨d, hd, hname⟩ := position?_eq_some_iff.1 hi
    obtain rfl : c = d := Option.some.inj (hc.symm.trans hd)
    exact ⟨List.mem_of_getElem? hc, hname⟩
  · rintro ⟨hc, rfl⟩
    obtain ⟨d, hd⟩ := exists_require_iff.2 (List.mem_map_of_mem hc : c.name ∈ s.names)
    obtain ⟨i, hi, hdi⟩ := require_eq_ok hd
    obtain ⟨e, he, hname⟩ := position?_eq_some_iff.1 hi
    obtain rfl : d = e := Option.some.inj (hdi.symm.trans he)
    rw [hd, List.inj_on_of_nodup_map s.names_nodup (List.mem_of_getElem? hdi) hc hname]

/-- An assignment passes the checks if it breaks no rule of its column. -/
theorem exists_resolve_iff :
    (∃ places, s.resolve assignments = .ok places) ↔
      ∀ a ∈ assignments, a.1 ∈ s.names ∧ ∀ c ∈ s.columns, c.name = a.1 →
        c.type.Admits c.name a.2 ∧ (a.2 = .null → c.nullable = true) := by
  induction assignments with
  | nil => simp [resolve]
  | cons a assignments ih =>
    obtain ⟨name, v⟩ := a
    simp only [resolve, bind_eq_ok, List.forall_mem_cons, ← ih]
    constructor
    · rintro ⟨_, c, hc, w, hw, w', hw', rest, hrest, -⟩
      obtain ⟨hmem, rfl⟩ := require_eq_ok_iff.1 hc
      obtain ⟨hnull, rfl⟩ := checkNull_eq_ok_iff.1 hw'
      refine ⟨⟨List.mem_map_of_mem hmem, fun d hd hname => ?_⟩, rest, hrest⟩
      obtain rfl := List.inj_on_of_nodup_map s.names_nodup hd hmem hname
      refine ⟨⟨_, hw⟩, ?_⟩
      rintro rfl
      exact hnull (Except.ok.inj (hw.symm.trans (ColumnType.coerce_eq_ok_null_iff.2 rfl)))
    · rintro ⟨⟨hname, hcol⟩, rest, hrest⟩
      obtain ⟨c, hc⟩ := exists_require_iff.2 hname
      obtain ⟨hmem, rfl⟩ := require_eq_ok_iff.1 hc
      obtain ⟨⟨w, hw⟩, hnull⟩ := hcol c hmem rfl
      have hpresent : w = .null → c.nullable = true := by
        rintro rfl
        exact hnull (ColumnType.coerce_eq_ok_null_iff.1 hw)
      exact ⟨_, c, hc, w, hw, w, checkNull_eq_ok_iff.2 ⟨hpresent, rfl⟩, rest, hrest, rfl⟩

/-- Assignments by places write what the assignments by names say. -/
theorem assign_eq_overwrite {tuple : Tuple} (h : s.resolve assignments = .ok places)
    (hlen : tuple.length = s.columns.length) :
    tuple.assign places = s.overwrite assignments tuple := by
  refine List.ext_getElem ?_ fun i hi hi' => ?_
  · simp [overwrite, Table.length_assign, hlen]
  · have hcol : i < s.columns.length := by
      rw [Table.length_assign, hlen] at hi
      exact hi
    have hold : i < tuple.length := hlen ▸ hcol
    obtain ⟨hsome, hnone⟩ := cell_assign h hlen (List.getElem?_eq_getElem hcol)
    rw [Tuple.cell_of_lt hi] at hsome hnone
    simp only [overwrite, List.getElem_zipWith]
    cases hlast : lastAssigned assignments s.columns[i].name with
    | some v => exact (ColumnType.coerce_eq_ok_iff.1 (hsome v hlast)).2
    | none => exact (hnone hlast).trans (Tuple.cell_of_lt hold)

end Schema

namespace Table

variable {t t' : Table} {p : Row → Bool} {assignments : List (String × Value)} {n : Nat}

theorem assigned_eq_overwritten {places : List (Nat × Value)} (hv : t.Valid)
    (h : t.schema.resolve assignments = .ok places) :
    t.assigned p places = t.overwritten p assignments := by
  refine List.map_congr_left fun tuple htuple => ?_
  rw [Schema.assign_eq_overwrite h (hv.fits tuple htuple).length_eq]

/-- Assignments are made exactly if they break no rule. -/
theorem update_eq_ok_iff (hv : t.Valid) :
    t.update p assignments = .ok (n, t') ↔
      t.AllowsUpdate p assignments ∧ n = t.rows.countP (t.selects p) ∧
        t' = { t with rows := t.overwritten p assignments } := by
  rw [update_eq_ok]
  constructor
  · rintro ⟨places, hres, hapart, rfl, rfl⟩
    rw [assigned_eq_overwritten hv hres] at hapart ⊢
    have hchecks := Schema.exists_resolve_iff.1 ⟨places, hres⟩
    exact ⟨⟨fun a ha => (hchecks a ha).1, fun a ha c hc hname => ((hchecks a ha).2 c hc hname).1,
      fun a ha c hc hname => ((hchecks a ha).2 c hc hname).2, hapart⟩, rfl, rfl⟩
  · rintro ⟨⟨hdecl, hadm, hpres, hapart⟩, rfl, rfl⟩
    obtain ⟨places, hres⟩ := Schema.exists_resolve_iff.2 fun a ha =>
      ⟨hdecl a ha, fun c hc hname => ⟨hadm a ha c hc hname, hpres a ha c hc hname⟩⟩
    rw [← assigned_eq_overwritten hv hres] at hapart ⊢
    exact ⟨places, hres, hapart, rfl, rfl⟩

end Table

/-! ## Stores -/

section
variable {s : Store} {name : String} {t : Table}

theorem Operation.insertRows_eq_ok_iff (ht : s.require name = .ok t) (hv : t.Valid)
    {clock : Nat → Timestamp} {rows inserted : List Row} {s' : Store} :
    insertRows clock name rows s = (.ok inserted, s') ↔
      t.Accepts clock rows ∧
        inserted = (t.completedRows clock rows).map t.schema.rowOf ∧
        s' = s.put { t with rows := t.rows ++ t.completedRows clock rows } := by
  rw [insertRows_eq_ok]
  constructor
  · rintro ⟨u, tuples, t', hu, hins, rfl, rfl⟩
    obtain rfl : t = u := Except.ok.inj (ht.symm.trans hu)
    obtain ⟨haccepts, rfl, rfl⟩ := (Table.insertRows_eq_ok_iff hv).1 hins
    exact ⟨haccepts, rfl, rfl⟩
  · rintro ⟨haccepts, rfl, rfl⟩
    exact ⟨t, _, _, ht, (Table.insertRows_eq_ok_iff hv).2 ⟨haccepts, rfl, rfl⟩, rfl, rfl⟩

theorem Operation.updateRows_eq_ok_iff (ht : s.require name = .ok t) (hv : t.Valid)
    {p : Row → Bool} {assignments : List (String × Value)} {n : Nat} {s' : Store} :
    updateRows name p assignments s = (.ok n, s') ↔
      t.AllowsUpdate p assignments ∧ n = t.rows.countP (t.selects p) ∧
        s' = s.put { t with rows := t.overwritten p assignments } := by
  rw [updateRows_eq_ok]
  constructor
  · rintro ⟨u, t', hu, hupd, rfl⟩
    obtain rfl : t = u := Except.ok.inj (ht.symm.trans hu)
    obtain ⟨hallows, rfl, rfl⟩ := (Table.update_eq_ok_iff hv).1 hupd
    exact ⟨hallows, rfl, rfl⟩
  · rintro ⟨hallows, rfl, rfl⟩
    exact ⟨t, _, ht, (Table.update_eq_ok_iff hv).2 ⟨hallows, rfl, rfl⟩, rfl⟩

/-- **The checks of INSERT and UPDATE are exact.**  On a valid table of a store, new rows are added
    if and only if they break no rule, and then the completed rows are added; assignments are made
    if and only if they break no rule, and then the rows that satisfy the condition hold the fitted
    values.  So nothing legal is refused and nothing illegal let through. -/
theorem accepts_exactly (ht : s.require name = .ok t) (hv : t.Valid) :
    (∀ (clock : Nat → Timestamp) (rows : List Row),
      ((∃ inserted, (Operation.insertRows clock name rows s).1 = .ok inserted) ↔
        t.Accepts clock rows) ∧
      (t.Accepts clock rows → Operation.insertRows clock name rows s =
        (.ok ((t.completedRows clock rows).map t.schema.rowOf),
          s.put { t with rows := t.rows ++ t.completedRows clock rows }))) ∧
    ∀ (p : Row → Bool) (assignments : List (String × Value)),
      ((∃ n, (Operation.updateRows name p assignments s).1 = .ok n) ↔
        t.AllowsUpdate p assignments) ∧
      (t.AllowsUpdate p assignments → Operation.updateRows name p assignments s =
        (.ok (t.rows.countP (t.selects p)),
          s.put { t with rows := t.overwritten p assignments })) := by
  refine ⟨fun clock rows => ?_, fun p assignments => ?_⟩
  · have hdone (h : t.Accepts clock rows) :=
      (Operation.insertRows_eq_ok_iff ht hv).2 ⟨h, rfl, rfl⟩
    refine ⟨⟨?_, fun h => ⟨_, congrArg Prod.fst (hdone h)⟩⟩, hdone⟩
    rintro ⟨inserted, h⟩
    exact ((Operation.insertRows_eq_ok_iff ht hv).1 (Prod.ext h rfl)).1
  · have hdone (h : t.AllowsUpdate p assignments) :=
      (Operation.updateRows_eq_ok_iff ht hv).2 ⟨h, rfl, rfl⟩
    refine ⟨⟨?_, fun h => ⟨_, congrArg Prod.fst (hdone h)⟩⟩, hdone⟩
    rintro ⟨n, h⟩
    exact ((Operation.updateRows_eq_ok_iff ht hv).1 (Prod.ext h rfl)).1

end

/-- Two numbered rows with keys of their own. -/
def ownKeyCalls : List StoreCall :=
  [.create "t" [(Column.ofName "id" .serial).asPrimaryKey,
      (Column.ofName "n" .integer).asUnique.asNotNull],
    .insert (fun _ => ⟨"", .date, 0⟩) "t" [.ofCells [("n", .integer 5)],
      .ofCells [("n", .integer 6)]]]

/-- A row may be assigned the key that it has, which no other row may; a row that is numbered may
    come with a new key, but not twice. -/
theorem accepts_exactly_ownKey :
    let s := runCalls ownKeyCalls (.ofSettings ⟨.reject, .apply, false, 3⟩
      fun _ => ⟨"", .date, 0⟩)
    let seven : Row := .ofCells [("n", .integer 7)]
    ∃ t, s.require "t" = .ok t ∧ t.Valid ∧
      t.AllowsUpdate (fun row => row.getD "id" == .integer 1) [("n", .integer 5)] ∧
      ¬ t.AllowsUpdate (fun _ => true) [("n", .integer 5)] ∧
      t.Accepts (fun _ => ⟨"", .date, 0⟩) [seven] ∧
      ¬ t.Accepts (fun _ => ⟨"", .date, 0⟩) [seven, seven] := by
  intro s seven
  have hs : s.Valid := (Store.Reachable.runCalls .new ownKeyCalls).valid
  obtain ⟨t, ht⟩ : ∃ t, s.require "t" = .ok t := ⟨_, rfl⟩
  have hv := hs.tables t (Store.require_eq_ok ht).1
  obtain ⟨hinsert, hupdate⟩ := accepts_exactly ht hv
  refine ⟨t, ht, hv, (hupdate _ _).1.1 ⟨1, by decide +kernel⟩, fun h => ?_,
    (hinsert _ _).1.1 ⟨[⟨[("id", .integer 3), ("n", .integer 7)]⟩], by decide +kernel⟩,
    fun h => ?_⟩
  · obtain ⟨n, hn⟩ := (hupdate _ _).1.2 h
    have hrefused : (Operation.updateRows "t" (fun _ => true) [("n", .integer 5)] s).1 =
        .error (.duplicateKey "n" "5") := by decide +kernel
    cases hrefused.symm.trans hn
  · obtain ⟨inserted, hinserted⟩ := (hinsert _ _).1.2 h
    have hrefused : (Operation.insertRows (fun _ => ⟨"", .date, 0⟩) "t" [seven, seven] s).1 =
        .error (.duplicateKey "n" "7") := by decide +kernel
    cases hrefused.symm.trans hinserted

end PocketSql
