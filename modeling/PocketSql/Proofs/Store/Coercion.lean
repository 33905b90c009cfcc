/-
  In every run of texts, the stored cells are fitted to the types of their columns.

  * `Store.Edit.Of.coerced`: what a statement may do keeps the tables of a store coerced, if the
    columns that it declares have settled defaults, and `run_coerced`: so does a text;
  * `TextCall` is a text with the settings and the clock under which it runs, `runTexts` runs texts
    one after the other and goes on after those that are refused;
  * `cells_of_runTexts`: what this says of the cells of a reached store.
-/
import PocketSql.Proofs.Statement.Defaults
import PocketSql.Proofs.Store.Validity

namespace PocketSql

/-! ## One text -/

/-- Every table of a store is coerced. -/
def Store.Coerced (s : Store) : Prop :=
  ∀ t ∈ s.tables, t.Coerced

theorem ofColumns_columns {name : String} {columns : List Column} {schema : Schema}
    (h : Schema.ofColumns name columns = .ok schema) : schema.columns = columns := by
  unfold Schema.ofColumns at h
  split at h
  · cases h
  split at h
  · cases h
  split at h
  · cases h; rfl
  · cases h

theorem Store.Edit.Of.coerced {s : Store} {name : String} {columns : List Column} {edit : Edit}
    (h : edit.Of name columns (s.table? name)) (hcolumns : ∀ c ∈ columns, c.Settled)
    (hv : s.Valid) (hs : s.Coerced) : (edit.apply s).Coerced := by
  generalize ht : s.table? name = t? at h
  cases h with
  | keep => exact hs
  | add hschema =>
    intro t hmem
    rcases List.mem_append.1 hmem with hold | hnew
    · exact hs t hold
    · rw [List.mem_singleton.1 hnew]
      exact Table.coerced_ofSchema (ofColumns_columns hschema ▸ hcolumns)
  | remove => exact fun t hmem => hs t (List.mem_filter.1 hmem).1
  | put hbecomes =>
    intro t hmem
    have hold := List.mem_of_find?_eq_some ht
    rcases mem_put hmem with rfl | hother
    · exact hbecomes.coerced (hv.tables _ hold) (hs _ hold)
    · exact hs t hother

theorem run_coerced (settings : Settings) (clock : Nat → Timestamp) (text : List Char) {s : Store}
    (hv : s.Valid) (hs : s.Coerced) : (s.run settings clock text).2.Coerced := by
  unfold Store.run
  cases hparse : parse text with
  | error cause => rwa [Operation.executeText_of_error hparse]
  | ok statement =>
    obtain ⟨result, edit, hedit, hrun⟩ :=
      Operation.execute_acts settings clock statement (s.table? statement.table)
    rw [Operation.executeText_of_ok hparse, hrun s rfl]
    exact hedit.coerced (parse_settled hparse) hv hs

/-! ## New stores -/

theorem userTuple_fixed (instant : Timestamp) (id age : Int64) {name email : String}
    (hname : name.length ≤ 100) (hemail : email.length ≤ 100) :
    usersSchema.FixesRow (userTuple instant id name email age) := by
  intro i c hc
  rcases i with _ | _ | _ | _ | _ | i <;> simp [usersSchema] at hc <;> subst hc
  · trivial
  · exact hname
  · exact hemail
  · trivial
  · trivial

theorem postTuple_fixed (instant : Timestamp) (id user : Int64) {title : String} (content : String)
    (htitle : title.length ≤ 200) :
    postsSchema.FixesRow (postTuple instant id user title content) := by
  intro i c hc
  rcases i with _ | _ | _ | _ | _ | i <;> simp [postsSchema] at hc <;> subst hc
  · trivial
  · trivial
  · exact htitle
  · trivial
  · trivial

theorem usersTable_coerced (clock : Nat → Timestamp) : (usersTable clock).Coerced where
  defaults c hc := by
    simp only [usersTable, usersSchema, List.mem_cons, List.not_mem_nil, or_false] at hc
    rcases hc with rfl | rfl | rfl | rfl | rfl <;> rintro _ ⟨⟩
  cells tuple h := by
    simp only [usersTable, List.mem_cons, List.not_mem_nil, or_false] at h
    rcases h with rfl | rfl | rfl <;> exact userTuple_fixed _ _ _ (by decide) (by decide)

theorem postsTable_coerced (clock : Nat → Timestamp) : (postsTable clock).Coerced where
  defaults c hc := by
    simp only [postsTable, postsSchema, List.mem_cons, List.not_mem_nil, or_false] at hc
    rcases hc with rfl | rfl | rfl | rfl | rfl <;> rintro _ ⟨⟩
  cells tuple h := by
    simp only [postsTable, List.mem_cons, List.not_mem_nil, or_false] at h
    rcases h with rfl | rfl | rfl <;> exact postTuple_fixed _ _ _ _ (by decide)

theorem ofSettings_coerced (settings : Settings) (clock : Nat → Timestamp) :
    (Store.ofSettings settings clock).Coerced := by
  unfold Store.ofSettings
  split
  · intro t h
    simp only [sampleStore, List.mem_cons, List.not_mem_nil, or_false] at h
    rcases h with rfl | rfl
    · exact usersTable_coerced clock
    · exact postsTable_coerced clock
  · intro t h
    cases h

/-! ## Runs -/

/-- A text, and the settings and the clock under which it runs. -/
structure TextCall where
  settings : Settings
  clock : Nat → Timestamp
  text : List Char

/-- The store after texts one after the other; a text that is refused does not end the run. -/
def runTexts (calls : List TextCall) (s : Store) : Store :=
  calls.foldl (fun s call => (s.run call.settings call.clock call.text).2) s

theorem runTexts_coerced (calls : List TextCall) {s : Store} (hv : s.Valid) (hs : s.Coerced) :
    (runTexts calls s).Coerced := by
  induction calls generalizing s with
  | nil => exact hs
  | cons call calls ih =>
    exact ih (run_valid call.settings call.clock call.text hv)
      (run_coerced call.settings call.clock call.text hv hs)

/-- **Stored cells are fitted to the types of their columns.**  After any texts on a new store, with
    or without the sample tables, fitting a stored cell to the type of its column changes nothing,
    however it came there: given, by default, at an instant, numbered or assigned.  So no text is
    longer than its column allows, no column of dates or timestamps holds a text that spells one,
    no boolean column holds a truth word, and no decimal column an integer. -/
theorem cells_of_runTexts (settings : Settings) (clock : Nat → Timestamp) (calls : List TextCall) :
    ∀ t ∈ (runTexts calls (.ofSettings settings clock)).tables, ∀ tuple ∈ t.rows,
      ∀ (i : Nat) (c : Column) (v : Value), t.schema.columns[i]? = some c → tuple[i]? = some v →
        c.type.coerce c.name v = .ok v ∧
        (∀ limit s, c.type = .varchar (some limit) → v = .text s → s.length ≤ limit) ∧
        (∀ s, c.type = .date ∨ c.type = .timestamp → v = .text s →
          Timestamp.read? s.toList = none) ∧
        (∀ s, c.type = .boolean → v = .text s → sameIgnoringCase s.toList "true".toList = false ∧
          sameIgnoringCase s.toList "false".toList = false) ∧
        ∀ n, c.type = .decimal → v ≠ .integer n := by
  intro t ht tuple htuple i c v hc hv
  have hcoerced : t.Coerced := runTexts_coerced calls (ofSettings_valid settings clock)
    (ofSettings_coerced settings clock) t ht
  have hcell : tuple.cell i = v := by simp [Tuple.cell, hv]
  have hfixed : c.type.Fixed v := hcell ▸ hcoerced.cells tuple htuple i c hc
  refine ⟨ColumnType.coerce_of_fixed hfixed c.name, ?_, ?_, ?_, ?_⟩
  · rintro limit s htype rfl
    rw [htype] at hfixed
    exact hfixed
  · rintro s (htype | htype) rfl
    · rw [htype] at hfixed
      exact hfixed
    · rw [htype] at hfixed
      exact hfixed
  · rintro s htype rfl
    rw [htype] at hfixed
    exact hfixed
  · rintro n htype rfl
    rw [htype] at hfixed
    exact hfixed

/-- A row whose cells are numbered, taken from a default, given and assigned. -/
def ordersCalls : List TextCall :=
  ["CREATE TABLE t (id SERIAL PRIMARY KEY, d DATE DEFAULT '2024-01-01', done BOOLEAN, sum DECIMAL)",
    "INSERT INTO t (done) VALUES ('TRUE')",
    "UPDATE t SET sum = 7"].map fun text =>
      ⟨⟨.reject, .apply, false, 3⟩, fun _ => ⟨"", .date, 0⟩, text.toList⟩

theorem cells_of_ordersCalls :
    ∃ t ∈ (runTexts ordersCalls (.ofSettings ⟨.reject, .apply, false, 3⟩
        fun _ => ⟨"", .date, 0⟩)).tables,
      t.rows = [[.integer 1, .instant ⟨"2024-01-01", .date, 1704067200000000000⟩, .boolean true,
        .decimal (.ofInt 7)]] ∧
      ∃ c, t.schema.columns[3]? = some c ∧ c.type = .decimal ∧
        c.type.coerce c.name (.decimal (.ofInt 7)) = .ok (.decimal (.ofInt 7)) := by
  generalize hs : runTexts ordersCalls (.ofSettings ⟨.reject, .apply, false, 3⟩
    fun _ => ⟨"", .date, 0⟩) = s
  have htables : s.tables.map (fun t => (t.schema.columns.map (·.type), t.rows)) =
      [([.serial, .date, .boolean, .decimal], [[.integer 1,
        .instant ⟨"2024-01-01", .date, 1704067200000000000⟩, .boolean true,
        .decimal (.ofInt 7)]])] := by
    subst hs
    decide +kernel
  obtain ⟨t, hsingle, ht⟩ := List.map_eq_singleton_iff.1 htables
  obtain ⟨htypes, hrows⟩ := Prod.mk.inj ht
  have hmem : t ∈ s.tables := hsingle ▸ List.mem_singleton_self t
  obtain ⟨c, hc, htype⟩ : ∃ c, t.schema.columns[3]? = some c ∧ c.type = .decimal := by
    rw [← Option.map_eq_some_iff, ← List.getElem?_map, htypes]
    rfl
  refine ⟨t, hmem, hrows, c, hc, htype, ?_⟩
  rw [← hs] at hmem
  exact (cells_of_runTexts _ _ ordersCalls t hmem _ (hrows ▸ List.mem_singleton_self _) 3 c _ hc
    rfl).1

end PocketSql
