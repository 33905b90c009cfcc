/-
  Which column a new row is refused for, if it leaves out one column only.

  * `Schema.SuppliesBut`: a row gives every column but one a value that the column can hold;
  * `Column.DefaultsToNull`: a column has to hold a value, and its default is none;
  * `Schema.SuppliesBut.complete_eq_error_iff`: the row is refused for the column that it leaves out
    if nothing else is put there, and the column has to hold a value;
  * `insertRow_nullNotAllowed_iff`: so are the columns that are required, and also those that
    default to NULL.
-/
import PocketSql.Proofs.Store.Numbering

namespace PocketSql

/-- A row gives every column but one a value that the column can hold. -/
structure Schema.SuppliesBut (s : Schema) (c : Column) (row : Row) : Prop where
  absent : row.get? c.name = none
  supplied : ∀ d ∈ s.columns, d.name ≠ c.name →
    ∃ v, row.get? d.name = some v ∧ v ≠ .null ∧ d.type.Admits d.name v

/-- The column has to hold a value, and rows that do not name it get none. -/
structure Column.DefaultsToNull (c : Column) : Prop where
  notNull : c.nullable = false
  notNumbered : c.isAutoIncrement = false
  default : c.default = some (.literal .null)

/-! ## One column -/

namespace Column

variable {c : Column} {instant : Timestamp} {highest : Int}

/-- A column that is required has no default, so that it is not one that defaults to NULL. -/
theorem DefaultsToNull.not_isRequired (h : c.DefaultsToNull) : c.isRequired = false := by
  simp [isRequired, h.default]

/-- A column lacks its value, if it is not named, for want of a default or because of it. -/
theorem completed_none_iff :
    c.completed instant highest none = .null ∧ c.nullable = false ↔
      c.isRequired = true ∨ c.DefaultsToNull := by
  constructor
  · rintro ⟨hcell, hnull⟩
    by_cases hauto : c.isAutoIncrement = true
    · simp [completed, hauto] at hcell
    · rw [Bool.not_eq_true] at hauto
      cases hdefault : c.default with
      | none => exact .inl (by simp [isRequired, hnull, hauto, hdefault])
      | some default =>
        simp only [completed, hauto, hdefault] at hcell
        cases default with
        | literal v => exact .inr ⟨hnull, hauto, hdefault.trans (congrArg _ (congrArg _ hcell))⟩
        | now => cases hcell
  · rintro (h | h)
    · simp only [isRequired, Bool.and_eq_true, Bool.not_eq_true', Option.isNone_iff_eq_none] at h
      obtain ⟨⟨hnull, hdefault⟩, hauto⟩ := h
      exact ⟨by simp [completed, hauto, hdefault], hnull⟩
    · exact ⟨by simp [completed, h.notNumbered, h.default, ColumnDefault.valueAt], h.notNull⟩

end Column

/-! ## The check of a row -/

namespace Schema

variable {s : Schema} {c d : Column} {row : Row} {instant : Timestamp} {highest : Int}

/-- What a row supplies is neither refused nor missing. -/
theorem SuppliesBut.eq_column (h : s.SuppliesBut c row) (hc : c ∈ s.columns) (hd : d ∈ s.columns)
    (hhighest : highest + 1 < signedLimit)
    (hcell : (∃ cause, newCell instant highest (row.get? d.name) d = .error cause) ∨
      newCell instant highest (row.get? d.name) d = .ok .null) :
    d = c ∧ newCell instant highest none c = .ok .null := by
  by_cases hname : d.name = c.name
  · obtain rfl := List.inj_on_of_nodup_map s.names_nodup hd hc hname
    rw [h.absent] at hcell
    refine ⟨rfl, hcell.resolve_left fun herror => ?_⟩
    obtain ⟨cause, herror⟩ := herror
    rcases newCell_eq_error herror with ⟨v, hv, -⟩ | ⟨-, -, hlimit, -⟩
    · cases hv
    · omega
  · obtain ⟨v, hv, hne, w, hw⟩ := h.supplied d hd hname
    rw [hv] at hcell
    rcases hcell with ⟨cause, herror⟩ | hnull
    · cases hw.symm.trans herror
    · exact absurd (ColumnType.coerce_eq_ok_null_iff.1 hnull) hne

/-- The cells of a row that leaves out one column are refused for that column only, and only if
    nothing else is put there. -/
theorem SuppliesBut.newCells_eq_error_iff (h : s.SuppliesBut c row) (hc : c ∈ s.columns)
    (hhighest : highest + 1 < signedLimit) :
    newCells instant highest row s.columns = .error (.nullNotAllowed c.name) ↔
      c.completed instant highest none = .null ∧ c.nullable = false := by
  constructor
  · intro herror
    obtain ⟨d, hd, hcell | ⟨hcell, hnull, -⟩⟩ := newCells_eq_error herror
    · obtain ⟨rfl, hok⟩ := h.eq_column hc hd hhighest (.inl ⟨_, hcell⟩)
      rw [h.absent, hok] at hcell
      cases hcell
    · obtain ⟨rfl, hok⟩ := h.eq_column hc hd hhighest (.inr hcell)
      exact ⟨(newCell_eq_ok_iff.1 hok).2.2.symm, hnull⟩
  · rintro ⟨hcompleted, hnull⟩
    cases hcells : newCells instant highest row s.columns with
    | ok tuple =>
      have hpresent := ((newCells_eq_ok_iff.1 hcells).1 c hc).present
      rw [h.absent] at hpresent
      cases hnull.symm.trans (hpresent hcompleted)
    | error cause =>
      obtain ⟨d, hd, hcell | ⟨hcell, -, rfl⟩⟩ := newCells_eq_error hcells
      · obtain ⟨rfl, hok⟩ := h.eq_column hc hd hhighest (.inl ⟨_, hcell⟩)
        rw [h.absent, hok] at hcell
        cases hcell
      · obtain ⟨rfl, -⟩ := h.eq_column hc hd hhighest (.inr hcell)
        rfl

theorem SuppliesBut.complete_eq_error_iff (h : s.SuppliesBut c row) (instant : Timestamp)
    (hc : c ∈ s.columns) (hhighest : highest + 1 < signedLimit) :
    s.complete instant highest row = .error (.nullNotAllowed c.name) ↔
      (∀ name ∈ row.names, name ∈ s.names) ∧ (c.isRequired = true ∨ c.DefaultsToNull) := by
  rw [← Column.completed_none_iff, ← h.newCells_eq_error_iff hc hhighest, complete, bind_eq_error]
  constructor
  · rintro (hnames | ⟨_, hnames, hcells⟩)
    · obtain ⟨_, -, -, hcause⟩ := requireAll_eq_error hnames
      cases hcause
    · exact ⟨requireAll_eq_ok_iff.1 hnames, hcells⟩
  · rintro ⟨hnames, hcells⟩
    exact .inr ⟨(), requireAll_eq_ok_iff.2 hnames, hcells⟩

end Schema

/-! ## The table -/

theorem enroll_eq_error {tuple : Tuple} {sets : List KeySet} {cause : SqlError}
    (h : enroll tuple sets = .error cause) :
    ∃ column value, cause = .duplicateKey column value := by
  unfold enroll at h
  split at h
  · exact ⟨_, _, (Except.error.inj h).symm⟩
  · cases h

/-- A row that is refused for a missing value is so before it is compared with the other rows. -/
theorem Table.stored_eq_nullNotAllowed_iff {t : Table} {instant : Timestamp} {row : Row}
    {column : String} :
    t.stored instant row = .error (.nullNotAllowed column) ↔
      t.schema.complete instant (t.schema.highestSerial t.rows) row =
        .error (.nullNotAllowed column) := by
  unfold stored Schema.prepareRow
  dsimp only [Batch.ofRows]
  cases t.schema.complete instant (t.schema.highestSerial t.rows) row with
  | error cause => simp [bind, Except.bind, Except.map]
  | ok tuple =>
    cases hkeys : enroll tuple (t.schema.keySets t.rows) with
    | ok sets => simp [bind, Except.bind, Except.map, hkeys]
    | error cause =>
      obtain ⟨_, _, rfl⟩ := enroll_eq_error hkeys
      simp [bind, Except.bind, Except.map, hkeys]

/-- A row that supplies every column of a table but one is refused for the one that it leaves out
    exactly if the row names columns of the table only and that column is required or defaults to
    NULL.  So it is refused for a required column exactly if the column does not default to NULL. -/
theorem insertRow_nullNotAllowed_iff {s : Store} {name : String} {t : Table} {c : Column}
    {row : Row} (ht : s.require name = .ok t) (hc : c ∈ t.schema.columns)
    (hserial : t.schema.highestSerial t.rows + 1 < signedLimit)
    (hrow : t.schema.SuppliesBut c row) (instant : Timestamp) :
    ((Operation.insertRow instant name row s).1 = .error (.nullNotAllowed c.name) ↔
      (∀ column ∈ row.names, column ∈ t.schema.names) ∧
        (c.isRequired = true ∨ c.DefaultsToNull)) ∧
    ((∀ column ∈ row.names, column ∈ t.schema.names) →
      (((Operation.insertRow instant name row s).1 = .error (.nullNotAllowed c.name) ↔
        c.isRequired = true) ↔ ¬ c.DefaultsToNull)) := by
  have hrefused : (Operation.insertRow instant name row s).1 = .error (.nullNotAllowed c.name) ↔
      (∀ column ∈ row.names, column ∈ t.schema.names) ∧
        (c.isRequired = true ∨ c.DefaultsToNull) := by
    rw [← hrow.complete_eq_error_iff instant hc hserial,
      ← Table.stored_eq_nullNotAllowed_iff, Operation.insertRow_apply ht]
    cases t.stored instant row <;> simp
  refine ⟨hrefused, fun hnames => ?_⟩
  rw [hrefused]
  constructor
  · intro hagree hnull
    have hrequired := hagree.1 ⟨hnames, .inr hnull⟩
    cases hnull.not_isRequired.symm.trans hrequired
  · intro hnot
    exact ⟨fun h => h.2.resolve_right hnot, fun h => ⟨hnames, .inl h⟩⟩

/-- A store with an empty table whose second column is given. -/
def requiringStore (c : Column) : Store :=
  ((StoreCall.create "t" [(Column.ofName "id" .serial).asPrimaryKey, c]).apply
    (.ofSettings ⟨.reject, .apply, false, 3⟩ fun _ => ⟨"", .date, 0⟩)).2

/-- A column that is required. -/
theorem insertRow_nullNotAllowed_required :
    let c := (Column.ofName "n" .integer).asNotNull
    (Operation.insertRow ⟨"", .date, 0⟩ "t" (.ofCells [("id", .integer 7)]) (requiringStore c)).1 =
        .error (.nullNotAllowed "n") ∧ c.isRequired = true := by
  intro c
  have ht : (requiringStore c).require "t" = .ok _ := rfl
  have hrow : Schema.SuppliesBut ⟨"t", [(Column.ofName "id" .serial).asPrimaryKey, c], by decide,
      by decide, by decide⟩ c (.ofCells [("id", .integer 7)]) := by
    refine ⟨rfl, fun d hd hne => ?_⟩
    rcases List.mem_pair.1 hd with rfl | rfl
    · exact ⟨.integer 7, rfl, by decide, .integer 7, rfl⟩
    · exact absurd rfl hne
  have hrefused := (insertRow_nullNotAllowed_iff ht (c := c) (by decide) (by decide +kernel) hrow
    ⟨"", .date, 0⟩).1
  exact ⟨hrefused.2 ⟨by decide +kernel, .inl rfl⟩, rfl⟩

/-- A column that defaults to NULL is not required, and the row is refused for it. -/
theorem insertRow_refuses_defaultsToNull :
    let c := ((Column.ofName "n" .integer).asNotNull).withDefault (.literal .null)
    (Operation.insertRow ⟨"", .date, 0⟩ "t" (.ofCells [("id", .integer 7)]) (requiringStore c)).1 =
        .error (.nullNotAllowed "n") ∧ c.isRequired = false := by
  decide +kernel

end PocketSql
