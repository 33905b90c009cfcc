/-
  Which new rows a table accepts, and what it stores of them.

  * `Schema.completed` is what a new row becomes when nothing is checked, `Schema.completedRows`
    what the rows of a batch become, each numbered after those before it;
  * `Table.Accepts`: what a batch has to satisfy, said of the table with the completed rows;
  * `Schema.prepareRow_eq_ok_iff`, `Table.accepts_cons`: the check of one row, and the conditions of
    a batch row by row;
  * `Table.insertRows_eq_ok_iff`: by induction, the checks, which stop at the first complaint and
    know the rows before by their identities only, pass exactly then.
-/
import PocketSql.Proofs.Store.Batch
import PocketSql.Proofs.Table.Admission
import PocketSql.Proofs.Table.Lookup

namespace PocketSql

/-! ## Completed rows -/

/-- What a new row holds in a column: the value it gives, fitted to the type, or the number after
    the highest one, the default or nothing. -/
def Column.completed (c : Column) (instant : Timestamp) (highest : Int) : Option Value → Value
  | some v => c.type.fitted c.name v
  | none =>
    if c.isAutoIncrement then .integer (Int64.ofInt (highest + 1))
    else (c.default.map (·.valueAt instant)).getD .null

namespace Schema

/-- What a new row becomes after some rows. -/
def completed (s : Schema) (instant : Timestamp) (old : List Tuple) (row : Row) : Tuple :=
  s.columns.map fun c => c.completed instant (s.highestSerial old) (row.get? c.name)

/-- What the rows of a batch become after some rows. -/
def completedRows (s : Schema) (clock : Nat → Timestamp) (old : List Tuple) :
    List Row → List Tuple
  | [] => []
  | row :: rows =>
    let tuple := s.completed (clock 0) old row
    tuple :: s.completedRows (fun i => clock (i + 1)) (old ++ [tuple]) rows

/-- A stored row lacks no value that it has to have. -/
def Present (s : Schema) (tuple : Tuple) : Prop :=
  ∀ i c, s.columns[i]? = some c → tuple.cell i = .null → c.nullable = true

end Schema

namespace Table

/-- What the rows of a batch become in a table. -/
def completedRows (t : Table) (clock : Nat → Timestamp) (rows : List Row) : List Tuple :=
  t.schema.completedRows clock t.rows rows

/-- A batch of new rows that breaks no rule of a table. -/
structure Accepts (t : Table) (clock : Nat → Timestamp) (rows : List Row) : Prop where
  /-- The rows name columns of the table only. -/
  declared : ∀ row ∈ rows, ∀ name ∈ row.names, name ∈ t.schema.names
  /-- The columns admit the values that they are given. -/
  admitted : ∀ row ∈ rows, ∀ c ∈ t.schema.columns, ∀ v, row.get? c.name = some v →
    c.type.Admits c.name v
  /-- The numbers of rows that give none fit in 64 bits. -/
  numbered : ∀ k row, rows[k]? = some row → ∀ c ∈ t.schema.columns, c.isAutoIncrement = true →
    row.get? c.name = none →
    t.schema.highestSerial (t.rows ++ (t.completedRows clock rows).take k) + 1 < signedLimit
  /-- No row lacks a value that it has to have. -/
  present : ∀ tuple ∈ t.rows ++ t.completedRows clock rows, t.schema.Present tuple
  /-- No two rows share an identity in a unique column. -/
  apart : (t.rows ++ t.completedRows clock rows).Pairwise t.schema.Apart

end Table

/-! ## The check of a row -/

section
variable {instant : Timestamp} {highest : Int} {row : Row} {tuple : Tuple} {c : Column}

/-- What a new row gives to a column, or leaves out, breaks no rule of the column. -/
structure Column.Takes (c : Column) (instant : Timestamp) (highest : Int) (given : Option Value) :
    Prop where
  admitted : ∀ v, given = some v → c.type.Admits c.name v
  numbered : c.isAutoIncrement = true → given = none → highest + 1 < signedLimit
  present : c.completed instant highest given = .null → c.nullable = true

namespace Schema

theorem newCell_eq_ok_iff {given : Option Value} {w : Value} :
    newCell instant highest given c = .ok w ↔
      (∀ v, given = some v → c.type.Admits c.name v) ∧
      (c.isAutoIncrement = true → given = none → highest + 1 < signedLimit) ∧
      w = c.completed instant highest given := by
  cases given with
  | some v => simp [newCell, Column.completed, ColumnType.coerce_eq_ok_iff]
  | none =>
    by_cases hauto : c.isAutoIncrement = true
    · by_cases hfits : highest + 1 < signedLimit
      · simp [newCell, nextSerial, Column.completed, hauto, hfits, eq_comm]
      · simp [newCell, nextSerial, hauto, hfits]
    · cases hdefault : c.default with
      | none => simp [newCell, Column.completed, hauto, hdefault, eq_comm]
      | some d => simp [newCell, Column.completed, hauto, hdefault, eq_comm]

theorem checkNull_eq_ok_iff {v w : Value} :
    checkNull c v = .ok w ↔ (v = .null → c.nullable = true) ∧ w = v := by
  constructor
  · intro h
    exact (checkNull_eq_ok h).symm
  · rintro ⟨hnull, rfl⟩
    cases w with
    | null => simp [checkNull, hnull rfl]
    | integer | decimal | text | boolean | instant => simp [checkNull, Value.isNull]

theorem newCells_eq_ok_iff {columns : List Column} :
    newCells instant highest row columns = .ok tuple ↔
      (∀ c ∈ columns, c.Takes instant highest (row.get? c.name)) ∧
      tuple = columns.map fun c => c.completed instant highest (row.get? c.name) := by
  induction columns generalizing tuple with
  | nil => simp [newCells, eq_comm]
  | cons c columns ih =>
    simp only [newCells, bind_eq_ok, newCell_eq_ok_iff, checkNull_eq_ok_iff, ih, Except.ok.injEq,
      List.forall_mem_cons, List.map_cons]
    constructor
    · rintro ⟨v, ⟨hadm, hnum, rfl⟩, _, ⟨hnull, rfl⟩, rest, ⟨hrest, rfl⟩, rfl⟩
      exact ⟨⟨⟨hadm, hnum, hnull⟩, hrest⟩, rfl⟩
    · rintro ⟨⟨⟨hadm, hnum, hnull⟩, hrest⟩, rfl⟩
      exact ⟨_, ⟨hadm, hnum, rfl⟩, _, ⟨hnull, rfl⟩, _, ⟨hrest, rfl⟩, rfl⟩

variable {s : Schema} {old : List Tuple}

/-- A new row that breaks no rule of the columns. -/
def Takes (s : Schema) (instant : Timestamp) (old : List Tuple) (row : Row) : Prop :=
  (∀ name ∈ row.names, name ∈ s.names) ∧
    ∀ c ∈ s.columns, c.Takes instant (s.highestSerial old) (row.get? c.name)

theorem complete_eq_ok_iff :
    s.complete instant (s.highestSerial old) row = .ok tuple ↔
      s.Takes instant old row ∧ tuple = s.completed instant old row := by
  simp only [complete, bind_eq_ok, newCells_eq_ok_iff, Takes, completed]
  constructor
  · rintro ⟨_, hnames, hcells, rfl⟩
    exact ⟨⟨requireAll_eq_ok_iff.1 hnames, hcells⟩, rfl⟩
  · rintro ⟨⟨hnames, hcells⟩, rfl⟩
    exact ⟨(), requireAll_eq_ok_iff.2 hnames, hcells, rfl⟩

theorem prepareRow_eq_ok_iff {batch : Batch} :
    s.prepareRow instant (.ofRows s old) row = .ok (tuple, batch) ↔
      s.Takes instant old row ∧ (∀ a ∈ old, s.Apart a tuple) ∧
        tuple = s.completed instant old row ∧ batch = .ofRows s (old ++ [tuple]) := by
  constructor
  · intro h
    obtain ⟨-, hapart, hbatch⟩ := prepareRow_spec h
    simp only [prepareRow, bind_eq_ok] at h
    obtain ⟨_, hcomplete, _, -, h⟩ := h
    obtain ⟨rfl, -⟩ := Prod.mk.inj (Except.ok.inj h)
    obtain ⟨htakes, htuple⟩ := complete_eq_ok_iff.1 hcomplete
    exact ⟨htakes, hapart, htuple, hbatch⟩
  · rintro ⟨htakes, hapart, rfl, rfl⟩
    simp only [prepareRow, bind_eq_ok]
    refine ⟨_, complete_eq_ok_iff.2 ⟨htakes, rfl⟩, _, enroll_keySets_eq_ok.2 ⟨hapart, rfl⟩, ?_⟩
    rw [ofRows_append]
    rfl

theorem present_completed_iff :
    s.Present (s.completed instant old row) ↔
      ∀ c ∈ s.columns, c.completed instant (s.highestSerial old) (row.get? c.name) = .null →
        c.nullable = true := by
  have hcell : ∀ i c, s.columns[i]? = some c → Tuple.cell (s.completed instant old row) i =
      c.completed instant (s.highestSerial old) (row.get? c.name) := by
    intro i c hc
    simp [Tuple.cell, completed, hc]
  constructor
  · intro h c hc hnull
    obtain ⟨i, hi⟩ := List.mem_iff_getElem?.1 hc
    exact h i c hi ((hcell i c hi).trans hnull)
  · intro h i c hi hnull
    exact h c (List.mem_of_getElem? hi) ((hcell i c hi).symm.trans hnull)

end Schema

end

/-! ## Batches -/

namespace Table

variable {t t' : Table} {clock : Nat → Timestamp} {row : Row} {rows : List Row}
  {tuples : List Tuple}

theorem completedRows_cons :
    t.completedRows clock (row :: rows) =
      t.schema.completed (clock 0) t.rows row ::
        (t.extend (t.schema.completed (clock 0) t.rows row)).completedRows
          (fun i => clock (i + 1)) rows := rfl

theorem accepts_nil (hv : t.Valid) : t.Accepts clock [] where
  declared _ h := nomatch h
  admitted _ h := nomatch h
  numbered k row h := by simp at h
  present tuple h := by
    rw [completedRows, Schema.completedRows, List.append_nil] at h
    exact (hv.fits tuple h).nullable
  apart := by
    rw [completedRows, Schema.completedRows, List.append_nil]
    exact hv.apart

/-- A batch breaks no rule exactly if its first row does not, and the others do not in the table
    with this row. -/
theorem accepts_cons :
    t.Accepts clock (row :: rows) ↔
      t.schema.Takes (clock 0) t.rows row ∧
        (∀ a ∈ t.rows, t.schema.Apart a (t.schema.completed (clock 0) t.rows row)) ∧
        (t.extend (t.schema.completed (clock 0) t.rows row)).Accepts
          (fun i => clock (i + 1)) rows := by
  generalize htuple : t.schema.completed (clock 0) t.rows row = tuple
  have hall : t.rows ++ t.completedRows clock (row :: rows) =
      (t.extend tuple).rows ++ (t.extend tuple).completedRows (fun i => clock (i + 1)) rows := by
    rw [completedRows_cons, htuple, extend, List.append_assoc, List.singleton_append]
  have hbefore : ∀ k, t.rows ++ (t.completedRows clock (row :: rows)).take (k + 1) =
      (t.extend tuple).rows ++
        ((t.extend tuple).completedRows (fun i => clock (i + 1)) rows).take k := by
    intro k
    rw [completedRows_cons, htuple, List.take_succ_cons, extend, List.append_assoc,
      List.singleton_append]
  have htake : t.rows ++ (t.completedRows clock (row :: rows)).take 0 = t.rows := by
    rw [List.take_zero, List.append_nil]
  constructor
  · rintro ⟨hdecl, hadm, hnum, hpres, hapart⟩
    rw [List.forall_mem_cons] at hdecl hadm
    rw [hall] at hpres hapart
    have htuplePres : t.schema.Present tuple := hpres tuple (by simp [extend])
    rw [← htuple, Schema.present_completed_iff] at htuplePres
    refine ⟨⟨hdecl.1, fun c hc => ⟨hadm.1 c hc, fun hauto hnone => ?_, htuplePres c hc⟩⟩, ?_,
      hdecl.2, hadm.2, fun k r hr c hc hauto hnone => ?_, hpres, hapart⟩
    · simpa only [htake] using hnum 0 row rfl c hc hauto hnone
    · have hold := (List.pairwise_append.1 (List.pairwise_append.1 hapart).1).2.2
      exact fun a ha => hold a ha tuple (List.mem_singleton_self tuple)
    · rw [← hbefore]
      exact hnum (k + 1) r hr c hc hauto hnone
  · rintro ⟨⟨hname, hcols⟩, -, hdecl, hadm, hnum, hpres, hapart⟩
    refine ⟨List.forall_mem_cons.2 ⟨hname, hdecl⟩,
      List.forall_mem_cons.2 ⟨fun c hc => (hcols c hc).admitted, hadm⟩, ?_, ?_, ?_⟩
    · rintro (_ | k) r hr c hc hauto hnone
      · obtain rfl : row = r := Option.some.inj hr
        rw [htake]
        exact (hcols c hc).numbered hauto hnone
      · rw [hbefore]
        exact hnum k r hr c hc hauto hnone
    · rwa [hall]
    · rwa [hall]

theorem extend_valid {instant : Timestamp} {tuple : Tuple} {batch : Batch} (hv : t.Valid)
    (h : t.schema.prepareRow instant (.ofRows t.schema t.rows) row = .ok (tuple, batch)) :
    (t.extend tuple).Valid := by
  obtain ⟨hfits, hapart, -⟩ := Schema.prepareRow_spec h
  refine ⟨?_, ?_⟩
  · intro a ha
    rcases List.mem_append.1 ha with hold | hnew
    · exact hv.fits a hold
    · obtain rfl := List.mem_singleton.1 hnew
      exact hfits
  · refine List.pairwise_append.2 ⟨hv.apart, List.pairwise_singleton _ _, fun a ha b hb => ?_⟩
    obtain rfl := List.mem_singleton.1 hb
    exact hapart a ha

theorem prepareRows_eq_ok_iff (hv : t.Valid) :
    t.schema.prepareRows clock (.ofRows t.schema t.rows) rows = .ok tuples ↔
      t.Accepts clock rows ∧ tuples = t.completedRows clock rows := by
  induction rows generalizing t clock tuples with
  | nil =>
    simp only [Schema.prepareRows, Except.ok.injEq, accepts_nil hv, true_and]
    exact eq_comm
  | cons row rows ih =>
    simp only [Schema.prepareRows, bind_eq_ok, Prod.exists, accepts_cons, completedRows_cons]
    constructor
    · rintro ⟨tuple, batch, hrow, rest, hrest, h⟩
      have hv' := extend_valid hv hrow
      obtain ⟨htakes, hapart, rfl, rfl⟩ := Schema.prepareRow_eq_ok_iff.1 hrow
      obtain ⟨hothers, rfl⟩ := (ih hv').1 hrest
      exact ⟨⟨htakes, hapart, hothers⟩, (Except.ok.inj h).symm⟩
    · rintro ⟨⟨htakes, hapart, hothers⟩, rfl⟩
      have hrow := Schema.prepareRow_eq_ok_iff.2 ⟨htakes, hapart, rfl, rfl⟩
      exact ⟨_, _, hrow, _, (ih (extend_valid hv hrow)).2 ⟨hothers, rfl⟩, rfl⟩

/-- A batch of new rows is added exactly if it breaks no rule, and then its completed rows are. -/
theorem insertRows_eq_ok_iff (hv : t.Valid) :
    t.insertRows clock rows = .ok (tuples, t') ↔
      t.Accepts clock rows ∧ tuples = t.completedRows clock rows ∧
        t' = { t with rows := t.rows ++ tuples } := by
  rw [insertRows_eq_ok, prepareRows_eq_ok_iff hv, and_assoc]

end Table

end PocketSql
