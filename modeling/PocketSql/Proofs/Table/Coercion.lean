/-
  Stored values are fitted to the types of their columns.

  * `ColumnType.Fixed` are the values that a type leaves as they are
    (`ColumnType.coerce_eq_self_iff`); what it makes of a value is one of them, so that fitting
    twice is fitting once (`ColumnType.coerce_idem`);
  * `Column.Settled`: a default that is a literal is one of them too;
  * `Table.Coerced`: so are the defaults and the cells of a table.  `Table.Becomes.coerced`: new
    rows, an UPDATE and a DELETE keep that, whichever way a value comes into a row.
-/
import PocketSql.Proofs.Store.Completion
import PocketSql.Proofs.Table.Assignment

namespace PocketSql

namespace ColumnType

variable {type : ColumnType} {column : String} {v w : Value}

/-- The values that a type leaves as they are. -/
def Fixed : ColumnType → Value → Prop
  | decimal, .integer _ => False
  | date, .text s | timestamp, .text s => Timestamp.read? s.toList = none
  | boolean, .text s =>
    sameIgnoringCase s.toList "true".toList = false ∧
      sameIgnoringCase s.toList "false".toList = false
  | varchar (some limit), .text s => s.length ≤ limit
  | _, _ => True

theorem fixed_null (type : ColumnType) : type.Fixed .null := by
  cases type with
  | varchar limit => cases limit <;> trivial
  | serial | integer | decimal | text | boolean | date | timestamp | json | other => trivial

theorem fixed_instant (type : ColumnType) (t : Timestamp) : type.Fixed (.instant t) := by
  cases type with
  | varchar limit => cases limit <;> trivial
  | serial | integer | decimal | text | boolean | date | timestamp | json | other => trivial

theorem coerceDate_cases (s : String) :
    (∃ t, coerceDate s = .instant t) ∨
      (Timestamp.read? s.toList = none ∧ coerceDate s = .text s) := by
  unfold coerceDate
  split
  · exact .inl ⟨_, rfl⟩
  · next h => exact .inr ⟨h, rfl⟩

theorem fixed_coerceDate (htype : type = date ∨ type = timestamp) (s : String) :
    type.Fixed (coerceDate s) := by
  rcases coerceDate_cases s with ⟨t, ht⟩ | ⟨hnone, hs⟩
  · rw [ht]
    exact type.fixed_instant t
  · rw [hs]
    rcases htype with rfl | rfl <;> exact hnone

theorem coerceTruth_cases (s : String) :
    (∃ b, coerceTruth s = .boolean b) ∨
      ((sameIgnoringCase s.toList "true".toList = false ∧
        sameIgnoringCase s.toList "false".toList = false) ∧ coerceTruth s = .text s) := by
  unfold coerceTruth
  split
  · exact .inl ⟨_, rfl⟩
  split
  · exact .inl ⟨_, rfl⟩
  · next htrue hfalse => exact .inr ⟨⟨eq_false_of_ne_true htrue, eq_false_of_ne_true hfalse⟩, rfl⟩

theorem coerce_of_fixed (h : type.Fixed v) (column : String) : type.coerce column v = .ok v := by
  unfold coerce
  split
  · cases h
  · next s => simp only [coerceDate, show Timestamp.read? s.toList = none from h]
  · next s => simp only [coerceDate, show Timestamp.read? s.toList = none from h]
  · next s =>
    rcases coerceTruth_cases s with ⟨b, hb⟩ | ⟨-, hs⟩
    · unfold coerceTruth at hb
      rw [if_neg (ne_true_of_eq_false h.1), if_neg (ne_true_of_eq_false h.2)] at hb
      cases hb
    · rw [hs]
  · next limit s => exact if_neg (Nat.not_lt.2 h)
  · rfl

/-- What a type makes of a value stays as it is. -/
theorem fixed_of_coerce (h : type.coerce column v = .ok w) : type.Fixed w := by
  unfold coerce at h
  split at h
  · cases h
    trivial
  · cases h
    exact fixed_coerceDate (.inl rfl) _
  · cases h
    exact fixed_coerceDate (.inr rfl) _
  · next s =>
    cases h
    rcases coerceTruth_cases s with ⟨b, hb⟩ | ⟨hneither, hs⟩
    · rw [hb]; trivial
    · rw [hs]; exact hneither
  · next limit s =>
    split at h
    · cases h
    · next hle =>
      cases h
      exact Nat.not_lt.1 hle
  · next hdecimal hdate htimestamp hboolean hvarchar =>
    cases h
    unfold Fixed
    split
    · exact hdecimal _ rfl rfl
    · exact (hdate _ rfl rfl).elim
    · exact (htimestamp _ rfl rfl).elim
    · exact (hboolean _ rfl rfl).elim
    · exact (hvarchar _ _ rfl rfl).elim
    · trivial

theorem coerce_eq_self_iff : type.coerce column v = .ok v ↔ type.Fixed v :=
  ⟨fixed_of_coerce, fun h => coerce_of_fixed h column⟩

/-- Fitting twice is fitting once. -/
theorem coerce_idem (h : type.coerce column v = .ok w) : type.coerce column w = .ok w :=
  coerce_of_fixed (fixed_of_coerce h) column

end ColumnType

/-! ## New rows -/

/-- The default of a column, if it is a literal, is fitted to its type. -/
def Column.Settled (c : Column) : Prop :=
  ∀ v, c.default = some (.literal v) → c.type.Fixed v

theorem Column.settled_of_none {c : Column} (h : c.default = none) : c.Settled := by
  intro v hv
  rw [h] at hv
  cases hv

theorem Column.settled_of_now {c : Column} (h : c.default = some .now) : c.Settled := by
  intro v hv
  rw [h] at hv
  cases hv

theorem ColumnDefault.fixed_valueAt {c : Column} {d : ColumnDefault} (hc : c.Settled)
    (hd : c.default = some d) (instant : Timestamp) : c.type.Fixed (d.valueAt instant) := by
  cases d with
  | literal v => exact hc v hd
  | now => exact c.type.fixed_instant instant

/-- What a new row holds in a column, whether it is given, numbered, the default or absent. -/
theorem Column.Takes.fixed {c : Column} {instant : Timestamp} {highest : Int} {given : Option Value}
    (h : c.Takes instant highest given) (hc : c.Settled) :
    c.type.Fixed (c.completed instant highest given) := by
  cases given with
  | some v =>
    exact ColumnType.fixed_of_coerce (ColumnType.coerce_eq_ok_iff.2 ⟨h.admitted v rfl, rfl⟩)
  | none =>
    cases hauto : c.isAutoIncrement with
    | true =>
      have hserial : c.type = .serial := by
        have := (Bool.and_eq_true_iff.1 hauto).2
        cases htype : c.type <;> simp [htype, ColumnType.isSerial] at this ⊢
      simp only [completed, hauto, if_true, hserial]
      trivial
    | false =>
      simp only [completed, hauto, Bool.false_eq_true, if_false]
      cases hd : c.default with
      | none => exact c.type.fixed_null
      | some d => exact ColumnDefault.fixed_valueAt hc hd instant

namespace Schema

variable {s : Schema} {tuple : Tuple}

/-- The cells of a row are fitted to the types of their columns. -/
def FixesRow (s : Schema) (tuple : Tuple) : Prop :=
  ∀ (i : Nat) (c : Column), s.columns[i]? = some c → c.type.Fixed (tuple.cell i)

theorem fixesRow_of_complete {instant : Timestamp} {highest : Int} {row : Row}
    (hs : ∀ c ∈ s.columns, c.Settled) (h : s.complete instant highest row = .ok tuple) :
    s.FixesRow tuple := by
  simp only [complete, bind_eq_ok, newCells_eq_ok_iff] at h
  obtain ⟨-, -, htakes, rfl⟩ := h
  intro i c hi
  have hc := List.mem_of_getElem? hi
  have hcell : Tuple.cell (s.columns.map fun c => c.completed instant highest (row.get? c.name)) i =
      c.completed instant highest (row.get? c.name) := by simp [Tuple.cell, hi]
  rw [hcell]
  exact (htakes c hc).fixed (hs c hc)

theorem fixesRow_of_prepareRows {clock : Nat → Timestamp} {batch : Batch} {rows : List Row}
    {tuples : List Tuple} (hs : ∀ c ∈ s.columns, c.Settled)
    (h : s.prepareRows clock batch rows = .ok tuples) : ∀ tuple ∈ tuples, s.FixesRow tuple := by
  induction rows generalizing clock batch tuples with
  | nil => cases h; simp
  | cons row rows ih =>
    simp only [prepareRows, prepareRow, bind_eq_ok] at h
    obtain ⟨_, ⟨tuple, hcomplete, _, -, hfirst⟩, rest, hrest, h⟩ := h
    cases hfirst
    cases h
    exact List.forall_mem_cons.2 ⟨fixesRow_of_complete hs hcomplete, ih hrest⟩

/-- A column holds what is assigned to it, fitted, or what it held. -/
theorem fixesRow_assign {assignments : List (String × Value)} {places : List (Nat × Value)}
    (h : s.resolve assignments = .ok places) (hlen : tuple.length = s.columns.length)
    (ht : s.FixesRow tuple) : s.FixesRow (tuple.assign places) := by
  intro i c hc
  obtain ⟨hsome, hnone⟩ := cell_assign h hlen hc
  cases hlast : lastAssigned assignments c.name with
  | some v => exact ColumnType.fixed_of_coerce (hsome v hlast)
  | none =>
    rw [hnone hlast]
    exact ht i c hc

end Schema

/-! ## Tables -/

/-- The literal defaults and the cells of a table are fitted to the types of their columns. -/
structure Table.Coerced (t : Table) : Prop where
  defaults : ∀ c ∈ t.schema.columns, c.Settled
  cells : ∀ tuple ∈ t.rows, t.schema.FixesRow tuple

theorem Table.coerced_ofSchema {s : Schema} (h : ∀ c ∈ s.columns, c.Settled) :
    (Table.ofSchema s).Coerced where
  defaults := h
  cells _ htuple := absurd htuple List.not_mem_nil

theorem Table.Becomes.coerced {t t' : Table} (h : t.Becomes t') (hv : t.Valid) (ht : t.Coerced) :
    t'.Coerced := by
  refine ⟨by rw [h.schema_eq]; exact ht.defaults, fun tuple htuple => ?_⟩
  rw [h.schema_eq]
  cases h with
  | insert h =>
    obtain ⟨hprepare, rfl⟩ := insertRows_eq_ok.1 h
    rcases List.mem_append.1 htuple with hold | hnew
    · exact ht.cells tuple hold
    · exact Schema.fixesRow_of_prepareRows ht.defaults hprepare tuple hnew
  | update h =>
    obtain ⟨places, hplaces, -, -, rfl⟩ := update_eq_ok.1 h
    obtain ⟨old, hold, rfl⟩ := List.mem_map.1 htuple
    split
    · exact Schema.fixesRow_assign hplaces (hv.fits old hold).length_eq (ht.cells old hold)
    · exact ht.cells old hold
  | delete => exact ht.cells tuple (List.mem_filter.1 htuple).1

end PocketSql
