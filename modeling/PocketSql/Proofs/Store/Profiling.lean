/-
  What a profile tells of a table, against what the table holds and what its definition allows.

  * `length_eraseDups`: the entries of a list, each taken once, are its set of entries;
    `length_filterMap_key?`: every value but the absent one has an identity;
  * `Table.cells`: the cells of a column; `presentValues_scan`: the values that a profile looks at
    are those of them that are not absent;
  * `Profile.Agrees`: a profile agrees with a column and its cells; `profileColumn_agrees`: in a
    valid table it does;
  * `profiles_agree`: so it does in every store that can arise, for all columns in their order.
-/
import Mathlib.Data.Finset.Card
import PocketSql.Engine
import PocketSql.Proofs.Store.Validity
import PocketSql.Proofs.Table.Lookup

namespace PocketSql

/-! ## Different values -/

theorem nodup_eraseDups {α : Type} [DecidableEq α] (xs : List α) : xs.eraseDups.Nodup := by
  cases xs with
  | nil => simp
  | cons x xs =>
    rw [List.eraseDups_cons, List.nodup_cons]
    exact ⟨by simp [List.mem_eraseDups], nodup_eraseDups _⟩
termination_by xs.length
decreasing_by exact Nat.lt_succ_of_le (List.length_filter_le _ _)

theorem length_eraseDups {α : Type} [DecidableEq α] (xs : List α) :
    xs.eraseDups.length = xs.toFinset.card := by
  have hsame : xs.eraseDups.toFinset = xs.toFinset := by
    ext x
    simp [List.mem_eraseDups]
  rw [← hsame, List.toFinset_card_of_nodup (nodup_eraseDups xs)]

/-- Only the absent value has no identity. -/
theorem Value.key?_eq_none_iff {v : Value} : v.key? = none ↔ v.isNull = true := by
  cases v with
  | decimal x =>
    simp only [key?, isNull]
    split
    · split <;> simp
    · simp
  | null | integer | text | boolean | instant => simp [key?, isNull]

theorem filterMap_key?_present (values : List Value) :
    (values.filter fun v => !v.isNull).filterMap Value.key? = values.filterMap Value.key? := by
  rw [List.filterMap_filter]
  refine List.filterMap_congr fun v _ => ?_
  cases hv : v.isNull with
  | true => simp [Value.key?_eq_none_iff.2 hv]
  | false => simp

/-- Every value is absent or has an identity. -/
theorem length_filterMap_key? (values : List Value) :
    (values.filterMap Value.key?).length + values.countP Value.isNull = values.length := by
  induction values with
  | nil => rfl
  | cons v values ih =>
    cases hkey : v.key? with
    | none =>
      have hnull : v.isNull = true := Value.key?_eq_none_iff.1 hkey
      rw [List.filterMap_cons_none hkey, List.countP_cons_of_pos hnull, List.length_cons, ← ih,
        Nat.add_assoc]
    | some key =>
      have hpresent : ¬ v.isNull = true := fun hnull => by
        cases hkey.symm.trans (Value.key?_eq_none_iff.2 hnull)
      rw [List.filterMap_cons_some hkey, List.countP_cons_of_neg hpresent, List.length_cons,
        List.length_cons, ← ih, Nat.add_right_comm]

/-! ## The cells of a column -/

/-- The cells of a column, row by row. -/
def Table.cells (t : Table) (i : Nat) : List Value :=
  t.rows.map fun tuple => tuple.cell i

theorem presentValues_eq (column : String) (rows : List Row) :
    presentValues column rows = (rows.map fun row => row.getD column).filter fun v => !v.isNull := by
  have hnull : Value.null.isNull = true := rfl
  induction rows with
  | nil => rfl
  | cons row rows ih =>
    rw [presentValues] at ih ⊢
    cases hcell : row.get? column with
    | none => simpa [hcell, Row.getD, hnull] using ih
    | some v => simp [hcell, Row.getD, List.filter_cons, ih]

section
variable {t : Table} {i : Nat} {c : Column}

theorem Table.length_cells (t : Table) (i : Nat) : (t.cells i).length = t.rows.length :=
  List.length_map _

theorem Table.filterMap_key?_cells (t : Table) (i : Nat) :
    (t.cells i).filterMap Value.key? = t.keys i :=
  List.filterMap_map

theorem presentValues_scan (hc : t.schema.columns[i]? = some c) :
    presentValues c.name t.scan = (t.cells i).filter fun v => !v.isNull := by
  have hplace : t.schema.position? c.name = some i :=
    Schema.position?_eq_some_iff.2 ⟨c, hc, rfl⟩
  have hcells : (t.scan.map fun row => row.getD c.name) = t.cells i := by
    rw [Table.scan, List.map_map, Table.cells]
    exact List.map_congr_left fun tuple _ => Schema.getD_rowOf hplace tuple
  rw [presentValues_eq, hcells]

/-- Where no absent value may stand, none does. -/
theorem Table.Valid.countP_isNull_cells (hv : t.Valid) (hc : t.schema.columns[i]? = some c)
    (hn : c.nullable = false) : (t.cells i).countP Value.isNull = 0 := by
  rw [List.countP_eq_zero, Table.cells, List.forall_mem_map]
  intro tuple htuple hnull
  have hcell : tuple.cell i = .null := by
    cases hvalue : tuple.cell i with
    | null => rfl
    | integer | decimal | text | boolean | instant => rw [hvalue] at hnull; cases hnull
  have hallowed := (hv.fits tuple htuple).nullable i c hc hcell
  cases hn.symm.trans hallowed

/-! ## Profiles -/

/-- What a profile counts and shows is what a column holds, with as many different values as values
    where none may repeat, and no absent value where none may stand. -/
structure Profile.Agrees (p : Profile) (c : Column) (cells : List Value) : Prop where
  nullCount_eq : p.nullCount = cells.countP Value.isNull
  uniqueCount_eq : p.uniqueCount = (cells.filterMap Value.key?).toFinset.card
  uniqueCount_le : p.uniqueCount ≤ cells.length - p.nullCount
  uniqueCount_of_unique : c.unique = true ∨ c.primaryKey = true →
    p.uniqueCount = cells.length - p.nullCount
  nullCount_of_notNull : c.nullable = false → p.nullCount = 0
  samples_eq : p.samples = (cells.filter fun v => !v.isNull).take 3

theorem profileColumn_agrees (hv : t.Valid) (hc : t.schema.columns[i]? = some c) :
    (profileColumn t.scan c).Agrees c (t.cells i) := by
  have hscan : t.scan.length = (t.cells i).length := by
    rw [Table.scan, List.length_map, Table.length_cells]
  have hpresent := length_filterMap_key? (t.cells i)
  have hvalues : ((t.cells i).filter fun v => !v.isNull).length =
      ((t.cells i).filterMap Value.key?).length := by
    have hsplit := List.length_eq_countP_add_countP Value.isNull (l := t.cells i)
    have hkept : (t.cells i).countP (fun v => decide ¬ v.isNull = true) =
        ((t.cells i).filter fun v => !v.isNull).length := by
      simp [List.countP_eq_length_filter]
    omega
  have hnulls : (profileColumn t.scan c).nullCount = (t.cells i).countP Value.isNull := by
    simp only [profileColumn, presentValues_scan hc, hvalues, hscan]
    omega
  have hkeys : (profileColumn t.scan c).uniqueCount =
      ((t.cells i).filterMap Value.key?).toFinset.card := by
    simp only [profileColumn, countDistinct, presentValues_scan hc, filterMap_key?_present,
      length_eraseDups]
  refine ⟨hnulls, hkeys, ?_, fun hunique => ?_, fun hn => ?_, ?_⟩
  · have hle := List.toFinset_card_le ((t.cells i).filterMap Value.key?)
    rw [hkeys, hnulls]
    omega
  · have hnodup : ((t.cells i).filterMap Value.key?).Nodup := by
      rw [Table.filterMap_key?_cells]
      exact hv.keys_nodup hc (by simpa [Column.isUnique] using hunique)
    rw [hkeys, hnulls, List.toFinset_card_of_nodup hnodup]
    omega
  · rw [hnulls, hv.countP_isNull_cells hc hn]
  · simp only [profileColumn, presentValues_scan hc, sampleLimit]

end

/-- **Profiles agree with the constraints.**  In a store that can arise, the profiles of a table
    with rows are those of its columns in their order.  Each counts the absent values of its column
    and the different values, of which there are no more than values, and as many if the column is
    unique or the primary key; it counts no absent value if the column is not nullable, and shows
    the first three values in the order of their insertion. -/
theorem profiles_agree {e : Engine} (hs : e.store.Reachable) {name : String} {t : Table}
    (ht : e.store.require name = .ok t) (hne : t.rows ≠ []) :
    ∃ profiles, e.profiles name = .ok (t.rows.length, profiles) ∧
      e.analysis name = .ok (analysisJson name t.rows.length profiles) ∧
      profiles.map Prod.fst = t.schema.names ∧
      ∀ (i : Nat) (c : Column), t.schema.columns[i]? = some c →
        ∃ p, profiles[i]? = some (c.name, p) ∧ p.Agrees c (t.cells i) := by
  have hv : t.Valid := hs.valid.tables t (Store.require_eq_ok ht).1
  have hrows : t.scan.length = t.rows.length := List.length_map _
  have hscan : t.scan.isEmpty = false := by
    rw [List.isEmpty_eq_false_iff, Table.scan]
    exact fun hnil => hne (List.map_eq_nil_iff.1 hnil)
  have hprofiles : e.profiles name = .ok (t.rows.length,
      t.schema.columns.map fun c => (c.name, profileColumn t.scan c)) := by
    rw [Engine.profiles, bind_eq_ok]
    refine ⟨t, ht, ?_⟩
    simp only [profileColumns, hscan, hrows, Bool.false_eq_true, if_false]
  refine ⟨_, hprofiles, ?_, ?_, fun i c hc => ?_⟩
  · rw [Engine.analysis, hprofiles]
    rfl
  · rw [List.map_map]
    rfl
  · refine ⟨profileColumn t.scan c, ?_, profileColumn_agrees hv hc⟩
    rw [List.getElem?_map, hc, Option.map_some]

/-- A key, a unique column with an absent value, and a column in which a value repeats. -/
def codesEngine : Engine :=
  let settings : Settings := ⟨.reject, .apply, false, 3⟩
  let clock : Nat → Timestamp := fun _ => ⟨"", .date, 0⟩
  let created := (Store.ofSettings settings clock).run settings clock
    "CREATE TABLE t (id SERIAL PRIMARY KEY, code TEXT UNIQUE, n INTEGER)".toList
  let filled := created.2.run settings clock
    "INSERT INTO t (code, n) VALUES ('a', 5), (NULL, 5), ('b', NULL), ('c', 6)".toList
  ⟨settings, filled.2⟩

theorem profiles_agree_codes :
    ∃ profiles, codesEngine.profiles "t" = .ok (4, profiles) ∧
      profiles.map Prod.fst = ["id", "code", "n"] ∧
      ∃ p, profiles[1]? = some ("code", p) ∧ p.nullCount = 1 ∧ p.uniqueCount = 3 := by
  have hs : codesEngine.store.Reachable := .run (.run .new ..) ..
  have hfound : (codesEngine.store.require "t").toOption.map (fun t =>
      (t.schema.columns.map (fun c => (c.name, c.unique)), t.rows)) =
      some ([("id", true), ("code", true), ("n", false)],
        [[.integer 1, .text "a", .integer 5], [.integer 2, .null, .integer 5],
          [.integer 3, .text "b", .null], [.integer 4, .text "c", .integer 6]]) := by
    decide +kernel
  obtain ⟨t, ht, hshape⟩ := Option.map_eq_some_iff.1 hfound
  obtain ⟨hcolumns, hrows⟩ := Prod.mk.inj hshape
  obtain ⟨profiles, hprofiles, -, hnames, hagree⟩ :=
    profiles_agree hs (toOption_eq_some.1 ht) (hrows ▸ List.cons_ne_nil _ _)
  obtain ⟨c, hc, hcode⟩ : ∃ c, t.schema.columns[1]? = some c ∧
      (c.name, c.unique) = ("code", true) := by
    rw [← Option.map_eq_some_iff, ← List.getElem?_map, hcolumns]
    rfl
  obtain ⟨hname, hunique⟩ := Prod.mk.inj hcode
  obtain ⟨p, hp, hpc⟩ := hagree 1 c hc
  have hnulls : p.nullCount = 1 := by
    rw [hpc.nullCount_eq, Table.cells, hrows]
    rfl
  refine ⟨profiles, ?_, ?_, p, hname ▸ hp, hnulls, ?_⟩
  · rw [hprofiles, hrows]
    rfl
  · have hall := congrArg (List.map Prod.fst) hcolumns
    rw [List.map_map] at hall
    exact hnames.trans hall
  · rw [hpc.uniqueCount_of_unique (.inl hunique), hnulls, Table.length_cells, hrows]
    rfl

end PocketSql
