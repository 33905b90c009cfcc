/-
  The column that numbers the rows of a table.

  * `Schema.Numbers`: a column is a primary key of type SERIAL; `wholesAt` are the whole numbers that
    some rows hold in a column, `Table.highest` is the highest of those of a table, and at least 0;
  * `Table.stored_number`: a new row that does not name the column is given the number after the
    highest one; `Table.highest_extend`: what the highest number is after a new row;
  * `Climbs`: numbers that increase between two bounds; `climbs_insertRows`: so do those that a batch
    gives, and by induction `climbs_runNumbers`: those that a run of batches gives;
  * `Table.Refuses`: the causes for which a row is refused; `Refuses.names_of_duplicateKey` and
    `Refuses.last_of_exhausted`: what it takes for this to be its number;
  * `Table.stored_of_insertRows`, `Table.refuses_of_insertRows`: each row of a batch meets the table
    with the rows before it;
  * `insert_numbers`: what this says of the rows that are added to a table of a store.
-/
import PocketSql.Proofs.Store.Completion

namespace PocketSql

/-! ## The highest number -/

/-- The column at a place numbers the rows. -/
structure Schema.Numbers (s : Schema) (i : Nat) (c : Column) : Prop where
  column : s.columns[i]? = some c
  primaryKey : c.primaryKey = true
  serial : c.type = .serial

/-- The whole numbers that some rows hold in a column. -/
def wholesAt (i : Nat) (rows : List Tuple) : List Int :=
  rows.filterMap fun tuple => (tuple.cell i).whole?

/-- The highest whole number that a table holds in a column, and at least 0. -/
def Table.highest (t : Table) (i : Nat) : Int :=
  (wholesAt i t.rows).foldl max 0

/-- The highest of 0 and some numbers is one of them, and none is higher. -/
theorem foldl_max_spec (ns : List Int) :
    ns.foldl max 0 ∈ 0 :: ns ∧ ∀ n ∈ 0 :: ns, n ≤ ns.foldl max 0 :=
  List.max?_eq_some_iff.1 List.max?_cons'

/-- Two primary keys are one column. -/
theorem primaryKey_unique {columns : List Column} {i j : Nat} {c d : Column}
    (hone : columns.countP (·.primaryKey) ≤ 1) (hc : columns[i]? = some c)
    (hd : columns[j]? = some d) (hck : c.primaryKey = true) (hdk : d.primaryKey = true) : i = j := by
  induction columns generalizing i j with
  | nil => cases hc
  | cons first columns ih =>
    have hlater : ∀ {k : Nat} {e : Column}, columns[k]? = some e → e.primaryKey = true →
        first.primaryKey = true → False := by
      intro k e he hek hfirst
      have hpos := List.countP_pos_iff (p := Column.primaryKey).2 ⟨e, List.mem_of_getElem? he, hek⟩
      rw [List.countP_cons_of_pos hfirst] at hone
      omega
    rcases i with _ | i <;> rcases j with _ | j
    · rfl
    · obtain rfl := Option.some.inj hc
      exact (hlater hd hdk hck).elim
    · obtain rfl := Option.some.inj hd
      exact (hlater hc hck hdk).elim
    · rw [List.countP_cons] at hone
      rw [ih (Nat.le_trans (Nat.le_add_right _ _) hone) hc hd]

namespace Schema.Numbers

variable {s : Schema} {i : Nat} {c : Column}

theorem isAutoIncrement (h : s.Numbers i c) : c.isAutoIncrement = true := by
  simp [Column.isAutoIncrement, ColumnType.isSerial, h.primaryKey, h.serial]

theorem findIdx? (h : s.Numbers i c) : s.columns.findIdx? Column.isAutoIncrement = some i := by
  cases hfound : s.columns.findIdx? Column.isAutoIncrement with
  | none =>
    have hnot := List.findIdx?_eq_none_iff.1 hfound c (List.mem_of_getElem? h.column)
    cases h.isAutoIncrement.symm.trans hnot
  | some j =>
    obtain ⟨hj, hauto, -⟩ := List.findIdx?_eq_some_iff_getElem.1 hfound
    have hkey : s.columns[j].primaryKey = true := (Bool.and_eq_true_iff.1 hauto).1
    rw [primaryKey_unique s.one_primaryKey (List.getElem?_eq_getElem hj) h.column hkey
      h.primaryKey]

theorem highestSerial (h : s.Numbers i c) (rows : List Tuple) :
    s.highestSerial rows = (wholesAt i rows).foldl max 0 := by
  rw [Schema.highestSerial, wholesAt, List.foldl_filterMap]
  congr 1
  funext highest tuple
  simp only [raiseSerial, h.findIdx?]
  cases (tuple.cell i).whole? <;> rfl

end Schema.Numbers

/-! ## One row -/

namespace Table

variable {t : Table} {i : Nat} {c : Column} {instant : Timestamp} {row : Row} {tuple : Tuple}

theorem stored_eq_ok (h : t.stored instant row = .ok tuple) :
    t.schema.Takes instant t.rows row ∧ tuple = t.schema.completed instant t.rows row := by
  unfold stored at h
  cases hrow : t.schema.prepareRow instant (.ofRows t.schema t.rows) row with
  | error cause => simp [hrow, Except.map] at h
  | ok prepared =>
    obtain ⟨found, batch⟩ := prepared
    obtain rfl : found = tuple := by simpa [hrow, Except.map] using h
    obtain ⟨htakes, -, htuple, -⟩ := Schema.prepareRow_eq_ok_iff.1 hrow
    exact ⟨htakes, htuple⟩

theorem highest_nonneg (t : Table) (i : Nat) : 0 ≤ t.highest i :=
  (foldl_max_spec _).2 0 List.mem_cons_self

theorem le_highest {n : Int} (h : n ∈ wholesAt i t.rows) : n ≤ t.highest i :=
  (foldl_max_spec _).2 n (List.mem_cons_of_mem 0 h)

/-- A completed row that does not name the column holds the number after the highest one. -/
theorem completed_number (hn : t.schema.Numbers i c) (h : t.schema.Takes instant t.rows row)
    (hnone : row.get? c.name = none) :
    ∃ id : Int64, (t.schema.completed instant t.rows row).cell i = .integer id ∧
      id.toInt = 1 + t.highest i := by
  have hfits := (h.2 c (List.mem_of_getElem? hn.column)).numbered hn.isAutoIncrement hnone
  rw [hn.highestSerial] at hfits
  refine ⟨Int64.ofInt (t.highest i + 1), ?_, ?_⟩
  · simp [Schema.completed, Tuple.cell, hn.column, Column.completed, hnone, hn.isAutoIncrement,
      hn.highestSerial, highest]
  · have hlow := t.highest_nonneg i
    have hlimit : signedLimit = 2 ^ 63 := rfl
    unfold highest at hlow ⊢
    rw [Int64.toInt_ofInt_of_le (by omega) (by omega), Int.add_comm]

/-- A new row that does not name the column is given the number after the highest one. -/
theorem stored_number (hn : t.schema.Numbers i c) (h : t.stored instant row = .ok tuple)
    (hnone : row.get? c.name = none) :
    ∃ id : Int64, tuple.cell i = .integer id ∧ id.toInt = 1 + t.highest i := by
  obtain ⟨htakes, rfl⟩ := stored_eq_ok h
  exact completed_number hn htakes hnone

theorem highest_extend (t : Table) (tuple : Tuple) (i : Nat) :
    (t.extend tuple).highest i = ((tuple.cell i).whole?.toList).foldl max (t.highest i) := by
  cases h : (tuple.cell i).whole? <;> simp [highest, extend, wholesAt, h]

/-- A new row does not lower the highest number, and its own number is not above it. -/
theorem le_highest_extend (t : Table) (tuple : Tuple) (i : Nat) :
    t.highest i ≤ (t.extend tuple).highest i ∧
      ∀ n, (tuple.cell i).whole? = some n → n ≤ (t.extend tuple).highest i := by
  rw [highest_extend]
  cases h : (tuple.cell i).whole? with
  | none => exact ⟨Int.le_refl _, nofun⟩
  | some n =>
    refine ⟨Int.le_max_left _ _, ?_⟩
    rintro _ ⟨⟩
    exact Int.le_max_right _ _

end Table

/-! ## Numbers that increase -/

/-- Numbers that increase, above a bound and not above another one. -/
structure Climbs (low : Int) (ns : List Int) (high : Int) : Prop where
  le : low ≤ high
  increases : ns.Pairwise (· < ·)
  above : ∀ n ∈ ns, low < n
  below : ∀ n ∈ ns, n ≤ high

namespace Climbs

variable {low mid high n : Int} {ns ms : List Int}

theorem nil (h : low ≤ high) : Climbs low [] high :=
  ⟨h, .nil, nofun, nofun⟩

theorem single (hlow : low < n) (hhigh : n ≤ high) : Climbs low [n] high :=
  ⟨by omega, List.pairwise_singleton _ _, by simpa using hlow, by simpa using hhigh⟩

theorem append (h : Climbs low ns mid) (h' : Climbs mid ms high) : Climbs low (ns ++ ms) high where
  le := Int.le_trans h.le h'.le
  increases := List.pairwise_append.2 ⟨h.increases, h'.increases, fun n hn m hm =>
    Int.lt_of_le_of_lt (h.below n hn) (h'.above m hm)⟩
  above := List.forall_mem_append.2
    ⟨h.above, fun m hm => Int.lt_of_le_of_lt h.le (h'.above m hm)⟩
  below := List.forall_mem_append.2
    ⟨fun n hn => Int.le_trans (h.below n hn) h'.le, h'.below⟩

end Climbs

/-- The numbers that new rows are given in a column that they do not name, `stored` being what they
    become. -/
def givenNumbers (column : String) (rows stored : List Row) : List Int :=
  (rows.zip stored).flatMap fun (row, stored) =>
    if (row.get? column).isNone then (stored.getD column).whole?.toList else []

theorem givenNumbers_cons (column : String) (row stored : Row) (rows others : List Row) :
    givenNumbers column (row :: rows) (stored :: others) =
      givenNumbers column [row] [stored] ++ givenNumbers column rows others := by
  simp [givenNumbers]

/-- The numbers that batches of new rows, each at the instants of a clock, are given one after the
    other; a batch that fails does not end the run. -/
def runNumbers (name column : String) : List ((Nat → Timestamp) × List Row) → Store → List Int
  | [], _ => []
  | (clock, rows) :: batches, s =>
    match Operation.insertRows clock name rows s with
    | (.ok stored, s) => givenNumbers column rows stored ++ runNumbers name column batches s
    | (.error _, s) => runNumbers name column batches s

section
variable {t t' : Table} {i : Nat} {c : Column} {clock : Nat → Timestamp} {row : Row}
  {rows : List Row} {tuple : Tuple} {tuples : List Tuple}

theorem Schema.Numbers.getD_rowOf {s : Schema} (hn : s.Numbers i c) (tuple : Tuple) :
    (s.rowOf tuple).getD c.name = tuple.cell i :=
  Schema.getD_rowOf (Schema.position?_eq_some_iff.2 ⟨c, hn.column, rfl⟩) tuple

theorem climbs_stored (hn : t.schema.Numbers i c) {instant : Timestamp}
    (h : t.stored instant row = .ok tuple) :
    Climbs (t.highest i) (givenNumbers c.name [row] [t.schema.rowOf tuple])
      ((t.extend tuple).highest i) := by
  obtain ⟨hle, hown⟩ := t.le_highest_extend tuple i
  cases hgiven : row.get? c.name with
  | some v => simpa [givenNumbers, hgiven] using Climbs.nil hle
  | none =>
    obtain ⟨id, hcell, hid⟩ := Table.stored_number hn h hgiven
    have hwhole : (tuple.cell i).whole? = some id.toInt := by rw [hcell, Value.whole?]
    simpa [givenNumbers, hgiven, hn.getD_rowOf, hwhole] using
      Climbs.single (by omega) (hown _ hwhole)

/-- The numbers that a batch gives increase from the highest number before it to the one after. -/
theorem climbs_insertRows (hn : t.schema.Numbers i c)
    (h : t.insertRows clock rows = .ok (tuples, t')) :
    Climbs (t.highest i) (givenNumbers c.name rows (tuples.map t.schema.rowOf)) (t'.highest i) := by
  induction rows generalizing t clock tuples with
  | nil =>
    rw [Table.insertRows_nil] at h
    cases h
    exact .nil (Int.le_refl _)
  | cons row rows ih =>
    rw [Table.insertRows_cons] at h
    split at h
    · cases h
    · next tuple htuple =>
      split at h
      · cases h
      · next others t'' hothers =>
        cases h
        rw [List.map_cons, givenNumbers_cons]
        exact (climbs_stored hn htuple).append (ih (t := t.extend tuple) hn hothers)

/-- So do those that a run of batches gives. -/
theorem climbs_runNumbers {s : Store} {name : String} (ht : s.require name = .ok t)
    (hn : t.schema.Numbers i c) (batches : List ((Nat → Timestamp) × List Row)) :
    ∃ high, Climbs (t.highest i) (runNumbers name c.name batches s) high := by
  induction batches generalizing s t with
  | nil => exact ⟨_, .nil (Int.le_refl _)⟩
  | cons batch batches ih =>
    obtain ⟨clock, rows⟩ := batch
    rw [runNumbers, Operation.insertRows_apply ht]
    cases hins : t.insertRows clock rows with
    | error cause => exact ih ht hn
    | ok prepared =>
      obtain ⟨tuples, t'⟩ := prepared
      obtain ⟨hschema, -⟩ := Table.rows_of_insertRows hins
      have hname : t'.name = name :=
        (congrArg Schema.name hschema).trans (Store.require_eq_ok ht).2
      obtain ⟨high, hclimbs⟩ := ih (Store.require_put ht hname) (hschema ▸ hn)
      exact ⟨high, (climbs_insertRows hn hins).append hclimbs⟩

end

/-! ## Rows that are refused -/

/-- Why a table refuses a new row. -/
inductive Table.Refuses (t : Table) (instant : Timestamp) (row : Row) : SqlError → Prop
  /-- The row names a column that the table does not have. -/
  | undeclared {name} : name ∈ row.names → name ∉ t.schema.names →
      Refuses t instant row (.unknownColumn name t.schema.name)
  /-- A value does not fit the type of its column. -/
  | unfit {c v cause} : c ∈ t.schema.columns → row.get? c.name = some v →
      c.type.coerce c.name v = .error cause → Refuses t instant row cause
  /-- The number of the row does not fit in 64 bits. -/
  | exhausted {c} : c ∈ t.schema.columns → c.isAutoIncrement = true → row.get? c.name = none →
      signedLimit ≤ t.schema.highestSerial t.rows + 1 →
      Refuses t instant row (.invalidValue c.name "SERIAL exhausted")
  /-- A value is absent that has to be there. -/
  | absent {c} : c ∈ t.schema.columns → c.nullable = false →
      Refuses t instant row (.nullNotAllowed c.name)
  /-- The row repeats an identity in a unique column. -/
  | repeated {i c old key} : t.schema.Takes instant t.rows row → t.schema.columns[i]? = some c →
      c.isUnique = true → old ∈ t.rows → (old.cell i).key? = some key →
      ((t.schema.completed instant t.rows row).cell i).key? = some key →
      Refuses t instant row
        (.duplicateKey c.name ((t.schema.completed instant t.rows row).cell i).display)

namespace Schema

variable {s : Schema} {instant : Timestamp} {highest : Int} {row : Row} {cause : SqlError}

theorem requireAll_eq_error {names : List String} (h : s.requireAll names = .error cause) :
    ∃ name ∈ names, name ∉ s.names ∧ cause = .unknownColumn name s.name := by
  induction names with
  | nil => cases h
  | cons name names ih =>
    rcases bind_eq_error.1 h with hfirst | ⟨_, -, hrest⟩
    · refine ⟨name, List.mem_cons_self, fun hmem => ?_, ?_⟩
      · obtain ⟨c, hc⟩ := exists_require_iff.2 hmem
        cases hc.symm.trans hfirst
      · unfold require at hfirst
        split at hfirst
        · cases hfirst
        · exact (Except.error.inj hfirst).symm
    · obtain ⟨found, hmem, hfound⟩ := ih hrest
      exact ⟨found, List.mem_cons_of_mem name hmem, hfound⟩

theorem newCells_eq_error {columns : List Column}
    (h : newCells instant highest row columns = .error cause) :
    ∃ c ∈ columns, newCell instant highest (row.get? c.name) c = .error cause ∨
      (newCell instant highest (row.get? c.name) c = .ok .null ∧ c.nullable = false ∧
        cause = .nullNotAllowed c.name) := by
  induction columns with
  | nil => cases h
  | cons c columns ih =>
    simp only [newCells, bind_eq_error] at h
    rcases h with hcell | ⟨v, hcell, hnull | ⟨_, -, hrest | ⟨_, -, h⟩⟩⟩
    · exact ⟨c, List.mem_cons_self, .inl hcell⟩
    · unfold checkNull at hnull
      split at hnull
      · next habsent =>
        obtain ⟨hv, hc⟩ := Bool.and_eq_true_iff.1 habsent
        obtain rfl : v = .null := by cases v <;> first | rfl | cases hv
        exact ⟨c, List.mem_cons_self,
          .inr ⟨hcell, by simpa using hc, (Except.error.inj hnull).symm⟩⟩
      · cases hnull
    · obtain ⟨d, hd, hcause⟩ := ih hrest
      exact ⟨d, List.mem_cons_of_mem c hd, hcause⟩
    · cases h

theorem newCell_eq_error {c : Column} {given : Option Value}
    (h : newCell instant highest given c = .error cause) :
    (∃ v, given = some v ∧ c.type.coerce c.name v = .error cause) ∨
      (given = none ∧ c.isAutoIncrement = true ∧ signedLimit ≤ highest + 1 ∧
        cause = .invalidValue c.name "SERIAL exhausted") := by
  unfold newCell at h
  split at h
  · exact .inl ⟨_, rfl, h⟩
  · split at h
    · next hauto =>
      unfold nextSerial at h
      split at h
      · cases h
      · next hlimit => exact .inr ⟨rfl, hauto, by omega, (Except.error.inj h).symm⟩
    · split at h <;> cases h

end Schema

/-- A row that is not stored is refused for one of these causes. -/
theorem Table.refuses_of_stored {t : Table} {instant : Timestamp} {row : Row} {cause : SqlError}
    (h : t.stored instant row = .error cause) : t.Refuses instant row cause := by
  have hprepare : t.schema.prepareRow instant (.ofRows t.schema t.rows) row = .error cause := by
    unfold stored at h
    cases hrow : t.schema.prepareRow instant (.ofRows t.schema t.rows) row with
    | error found => simpa [hrow, Except.map] using h
    | ok prepared => simp [hrow, Except.map] at h
  simp only [Schema.prepareRow, Schema.complete, Batch.ofRows, bind_eq_error] at hprepare
  rcases hprepare with (hnames | ⟨_, -, hcells⟩) | ⟨tuple, hcomplete, henroll | ⟨_, -, h⟩⟩
  · obtain ⟨name, hmem, hname, rfl⟩ := Schema.requireAll_eq_error hnames
    exact .undeclared hmem hname
  · obtain ⟨c, hc, hcell | ⟨-, hnull, rfl⟩⟩ := Schema.newCells_eq_error hcells
    · rcases Schema.newCell_eq_error hcell with ⟨v, hv, hcoerce⟩ | ⟨hnone, hauto, hlimit, rfl⟩
      · exact .unfit hc hv hcoerce
      · exact .exhausted hc hauto hnone hlimit
    · exact .absent hc hnull
  · obtain ⟨htakes, rfl⟩ := Schema.complete_eq_ok_iff.1 hcomplete
    obtain ⟨i, c, other, key, hc, hunique, hother, hotherKey, hkey, rfl⟩ :=
      Schema.enroll_keySets_eq_error henroll
    exact .repeated htakes hc hunique hother hotherKey hkey
  · cases h

namespace Value

variable {v : Value} {n : Int}

/-- What has the identity of an integer is that integer. -/
theorem whole?_of_key? (h : v.key? = some (.integer n)) : v.whole? = some n := by
  cases v with
  | integer i => simpa [key?, whole?] using h
  | decimal x =>
    simp only [key?] at h
    split at h
    · next i hwhole =>
      split at h
      · next hlt =>
        obtain rfl : i = n := by simpa using h
        have hfits : fitsInt64 i = true := by
          simp only [fitsInt64, Bool.and_eq_true, decide_eq_true_eq]
          omega
        simp [whole?, hwhole, hfits]
      · simp at h
    · simp at h
  | null | text | boolean | instant => simp [key?] at h

theorem whole?_lt (h : v.whole? = some n) : n < signedLimit := by
  cases v with
  | integer i =>
    obtain rfl : i.toInt = n := by simpa [whole?] using h
    exact i.toInt_lt
  | decimal x =>
    obtain ⟨-, hfits⟩ := Option.filter_eq_some_iff.1 h
    exact of_decide_eq_true (Bool.and_eq_true_iff.1 hfits).2
  | null | text | boolean | instant => cases h

end Value

namespace Table

variable {t : Table} {i : Nat} {c : Column} {instant : Timestamp} {row : Row} {cause : SqlError}

/-- A table has one column of a name. -/
theorem column_unique {s : Schema} (hn : s.Numbers i c) {d : Column} (hd : d ∈ s.columns)
    (hname : d.name = c.name) : d = c := by
  obtain ⟨j, hj⟩ := List.mem_iff_getElem?.1 hd
  obtain rfl := Schema.place_unique hn.column hj hname.symm
  exact Option.some.inj (hj.symm.trans hn.column)

/-- A row that does not name the column is not refused because its number is there already. -/
theorem Refuses.names_of_duplicateKey (hn : t.schema.Numbers i c) {value : String}
    (h : t.Refuses instant row (.duplicateKey c.name value)) : row.get? c.name ≠ none := by
  intro hnone
  generalize hcause : SqlError.duplicateKey c.name value = cause at h
  cases h with
  | undeclared | exhausted | absent => cases hcause
  | unfit hd hv hcoerce =>
    obtain ⟨_, _, rfl, -⟩ := ColumnType.coerce_eq_error hcoerce
    cases hcause
  | @repeated j d old key htakes hd hunique hold holdKey hkey =>
    obtain ⟨hname, -⟩ := SqlError.duplicateKey.inj hcause
    obtain rfl := Schema.place_unique hn.column hd hname
    obtain ⟨id, hcell, hid⟩ := completed_number hn htakes hnone
    rw [hcell] at hkey
    obtain rfl : UniqueKey.integer id.toInt = key := Option.some.inj hkey
    -- the identity of the new number is that of a stored one, which is not above the highest
    have hstored : id.toInt ∈ wholesAt i t.rows :=
      List.mem_filterMap.2 ⟨old, hold, Value.whole?_of_key? holdKey⟩
    have hle := le_highest hstored
    omega

/-- A row is refused because no number is left only if it does not name the column and the last
    number is taken. -/
theorem Refuses.last_of_exhausted (hn : t.schema.Numbers i c)
    (h : t.Refuses instant row (.invalidValue c.name "SERIAL exhausted")) :
    row.get? c.name = none ∧ Int64.maxValue.toInt ∈ wholesAt i t.rows := by
  generalize hcause : SqlError.invalidValue c.name "SERIAL exhausted" = cause at h
  cases h with
  | undeclared | absent | repeated => cases hcause
  | unfit hd hv hcoerce =>
    obtain ⟨limit, _, rfl, htype⟩ := ColumnType.coerce_eq_error hcoerce
    obtain ⟨hname, -⟩ := SqlError.invalidValue.inj hcause
    rw [column_unique hn hd hname.symm, hn.serial] at htype
    cases htype
  | @exhausted d hd hauto hnone hlimit =>
    obtain ⟨hname, -⟩ := SqlError.invalidValue.inj hcause
    obtain rfl := column_unique hn hd hname.symm
    rw [hn.highestSerial] at hlimit
    have hpositive : signedLimit = 9223372036854775808 := rfl
    rcases List.mem_cons.1 (foldl_max_spec (wholesAt i t.rows)).1 with hzero | hmem
    · omega
    · obtain ⟨tuple, -, hwhole⟩ := List.mem_filterMap.1 hmem
      have hlt := Value.whole?_lt hwhole
      have hlast : Int64.maxValue.toInt = (wholesAt i t.rows).foldl max 0 := by
        have hvalue : Int64.maxValue.toInt = 9223372036854775807 := by decide
        omega
      exact ⟨hnone, hlast ▸ hmem⟩

end Table

/-! ## Every row of a batch -/

/-- A table with more stored rows. -/
def Table.append (t : Table) (tuples : List Tuple) : Table :=
  { t with rows := t.rows ++ tuples }

namespace Table

variable {t t' : Table} {clock : Nat → Timestamp} {rows : List Row} {row : Row}
  {tuples : List Tuple} {cause : SqlError}

theorem append_nil (t : Table) : t.append [] = t := by
  simp [append]

theorem append_extend (t : Table) (tuple : Tuple) (tuples : List Tuple) :
    (t.extend tuple).append tuples = t.append (tuple :: tuples) := by
  simp [append, extend]

/-- Each row of a batch is stored in the table with the rows before it. -/
theorem stored_of_insertRows (h : t.insertRows clock rows = .ok (tuples, t')) {j : Nat}
    (hrow : rows[j]? = some row) :
    ∃ tuple, tuples[j]? = some tuple ∧
      (t.append (tuples.take j)).stored (clock j) row = .ok tuple := by
  induction rows generalizing t clock tuples j with
  | nil => cases hrow
  | cons first rows ih =>
    rw [insertRows_cons] at h
    split at h
    · cases h
    · next tuple htuple =>
      split at h
      · cases h
      · next others t'' hothers =>
        cases h
        cases j with
        | zero =>
          cases hrow
          exact ⟨tuple, rfl, by simpa only [List.take_zero, append_nil] using htuple⟩
        | succ j =>
          obtain ⟨found, hfound, hstored⟩ := ih hothers hrow
          rw [append_extend] at hstored
          exact ⟨found, hfound, hstored⟩

/-- A batch fails at the first of its rows that is refused by the table with the rows before it. -/
theorem refuses_of_insertRows (h : t.insertRows clock rows = .error cause) :
    ∃ before row after tuples, rows = before ++ row :: after ∧
      t.insertRows clock before = .ok (tuples, t.append tuples) ∧
      (t.append tuples).Refuses (clock before.length) row cause := by
  induction rows generalizing t clock with
  | nil =>
    rw [insertRows_nil] at h
    cases h
  | cons first rows ih =>
    rw [insertRows_cons] at h
    split at h
    · next hfirst =>
      cases h
      refine ⟨[], first, rows, [], rfl, ?_, ?_⟩
      · rw [insertRows_nil, append_nil]
      · rw [append_nil]
        exact refuses_of_stored hfirst
    · next tuple htuple =>
      split at h
      · next hothers =>
        cases h
        obtain ⟨before, row, after, tuples, rfl, hbefore, hrefuses⟩ := ih hothers
        rw [append_extend] at hbefore hrefuses
        refine ⟨first :: before, row, after, tuple :: tuples, rfl, ?_, hrefuses⟩
        rw [insertRows_cons]
        simp only [htuple, hbefore]
      · cases h

end Table

/-! ## Numbered rows -/

/-- **SERIAL numbers.**  In a table of a store with a SERIAL primary key, a batch that is added gives
    each row that does not name the key 1 more than the highest of 0 and the whole numbers that the
    key has in the stored rows and in the rows of the batch before it, hence a number above all of
    these.  A batch that is not added fails at a row of which the rows before could be added: if it
    fails because the key is there already, this row names the key, and if no number is left, it does
    not, and the last of the 64-bit integers is one of those numbers.  The numbers that a run of
    batches gives, failed ones among them, increase strictly. -/
theorem insert_numbers {s : Store} {name : String} {t : Table} {i : Nat} {c : Column}
    (ht : s.require name = .ok t) (hn : t.schema.Numbers i c) :
    (∀ clock rows inserted s', Operation.insertRows clock name rows s = (.ok inserted, s') →
      ∃ new t', s'.require name = .ok t' ∧ t'.rows = t.rows ++ new ∧
        inserted = new.map t.schema.rowOf ∧
        ∀ (j : Nat) row, rows[j]? = some row → row.get? c.name = none →
          let present := wholesAt i (t.rows ++ new.take j)
          ∃ tuple id, new[j]? = some tuple ∧ tuple.cell i = .integer id ∧
            id.toInt = 1 + present.foldl max 0 ∧ ∀ n ∈ present, n < id.toInt) ∧
    (∀ clock rows cause s', Operation.insertRows clock name rows s = (.error cause, s') →
      s' = s ∧ ∃ before row after new s'', rows = before ++ row :: after ∧
        Operation.insertRows clock name before s = (.ok (new.map t.schema.rowOf), s'') ∧
        (∀ value, cause = .duplicateKey c.name value → row.get? c.name ≠ none) ∧
        (cause = .invalidValue c.name "SERIAL exhausted" →
          row.get? c.name = none ∧ Int64.maxValue.toInt ∈ wholesAt i (t.rows ++ new))) ∧
    ∀ batches, (runNumbers name c.name batches s).Pairwise (· < ·) := by
  refine ⟨fun clock rows inserted s' h => ?_, fun clock rows cause s' h => ?_, fun batches => ?_⟩
  · obtain ⟨u, new, t', hu, hins, rfl, rfl⟩ := Operation.insertRows_eq_ok.1 h
    obtain rfl : t = u := Except.ok.inj (ht.symm.trans hu)
    obtain ⟨hschema, hrows⟩ := Table.rows_of_insertRows hins
    have hname : t'.name = name :=
      (congrArg Schema.name hschema).trans (Store.require_eq_ok ht).2
    refine ⟨new, t', Store.require_put ht hname, hrows, rfl, fun j row hrow hnone => ?_⟩
    obtain ⟨tuple, htuple, hstored⟩ := Table.stored_of_insertRows hins hrow
    obtain ⟨id, hcell, hid⟩ :=
      Table.stored_number (t := t.append (new.take j)) hn hstored hnone
    refine ⟨tuple, id, htuple, hcell, hid, fun n hmem => ?_⟩
    have hle := Table.le_highest (t := t.append (new.take j)) hmem
    omega
  · rw [Operation.insertRows_apply ht] at h
    cases hins : t.insertRows clock rows with
    | ok inserted => simp [hins] at h
    | error found =>
      simp only [hins, Prod.mk.injEq, Except.error.injEq] at h
      obtain ⟨rfl, rfl⟩ := h
      obtain ⟨before, row, after, new, hrows, hbefore, hrefuses⟩ :=
        Table.refuses_of_insertRows hins
      refine ⟨rfl, before, row, after, new, s.put (t.append new), hrows, ?_, ?_, ?_⟩
      · rw [Operation.insertRows_apply ht, hbefore]
      · rintro value rfl
        exact hrefuses.names_of_duplicateKey (t := t.append new) hn
      · rintro rfl
        exact hrefuses.last_of_exhausted (t := t.append new) hn
  · obtain ⟨high, hclimbs⟩ := climbs_runNumbers ht hn batches
    exact hclimbs.increases

/-- A store with an empty table of numbered rows. -/
def numberedStore : Store :=
  ((StoreCall.create "t" [(Column.ofName "id" .serial).asPrimaryKey,
    Column.ofName "n" .integer]).apply (.ofSettings ⟨.reject, .apply, false, 3⟩
      fun _ => ⟨"", .date, 0⟩)).2

theorem insert_numbers_mixed :
    let clock : Nat → Timestamp := fun _ => ⟨"", .date, 0⟩
    let mixed : List Row :=
      [.ofCells [("n", .integer 5)], .ofCells [("id", .decimal (.ofInt 41))], .ofCells []]
    let full : List Row := [.ofCells [("id", .integer Int64.maxValue)], .ofCells []]
    (Operation.insertRows clock "t" mixed numberedStore).1 =
        .ok [⟨[("id", .integer 1), ("n", .integer 5)]⟩,
          ⟨[("id", .decimal (.ofInt 41)), ("n", .null)]⟩, ⟨[("id", .integer 42), ("n", .null)]⟩] ∧
      Operation.insertRows clock "t" full numberedStore =
        (.error (.invalidValue "id" "SERIAL exhausted"), numberedStore) ∧
      runNumbers "t" "id" [(clock, mixed), (clock, full), (clock, mixed.take 1)] numberedStore =
        [1, 42, 43] ∧
      [1, 42, 43].Pairwise (fun n m : Int => n < m) := by
  intro clock mixed full
  have ht : numberedStore.require "t" = .ok _ := rfl
  have h := insert_numbers (i := 0) (c := (Column.ofName "id" .serial).asPrimaryKey) ht
    ⟨rfl, rfl, rfl⟩
  have hrun : runNumbers "t" "id" [(clock, mixed), (clock, full), (clock, mixed.take 1)]
      numberedStore = [1, 42, 43] := by
    decide +kernel
  refine ⟨by decide +kernel, ?_, hrun, hrun ▸ h.2.2 _⟩
  have hcause : (Operation.insertRows clock "t" full numberedStore).1 =
      .error (.invalidValue "id" "SERIAL exhausted") := by
    decide +kernel
  exact Prod.ext hcause (h.2.1 clock full _ _ (Prod.ext hcause rfl)).1

end PocketSql
