/-
  Rows that repeat a value of a unique column.

  * `Value.compare?_of_key?`: values of one identity have an order, which finds them equal, and so
    does `=`, unless they are no numbers (`Value.isNaN`);
  * `Schema.Repeats`: a row repeats the value that one of some rows holds in a unique column, and a
    condition that compares the column with this value finds the other row;
  * `Table.repeats_of_insertRows`, `Table.repeats_of_update`: of which rows a batch and an UPDATE
    complain, and among which rows the other one is; `Table.LeavesRow`: what rows an UPDATE leaves;
  * `duplicates_found`: what this says of the operations on a store.
-/
import PocketSql.Proofs.Number.ExactValue
import PocketSql.Proofs.Predicate.Coherence
import PocketSql.Proofs.Store.Numbering

namespace PocketSql

/-! ## Values of one identity -/

namespace Value

variable {u v : Value} {n : Int} {key : UniqueKey}

/-- A decimal that is not a number. -/
def isNaN : Value → Bool
  | decimal x => x.isNaN
  | _ => false

theorem isNaN_of_whole? (h : v.whole? = some n) : v.isNaN = false := by
  cases v with
  | decimal x =>
    obtain ⟨hwhole, -⟩ := Option.filter_eq_some_iff.1 h
    have hlt := of_decide_eq_true (Binary64.ordinal_of_whole? hwhole).1
    exact decide_eq_false (by omega)
  | null | integer | text | boolean | instant => rfl

/-- The numeric reading of a whole number stands where its integer does. -/
theorem number?_of_whole? (h : v.whole? = some n) :
    v.isNumeric = true ∧
      ∃ x, v.number? = some x ∧ x.isNaN = false ∧ x.ordinal = (Binary64.ofInt n).ordinal := by
  cases v with
  | integer i =>
    obtain rfl : i.toInt = n := Option.some.inj h
    exact ⟨rfl, _, rfl, Binary64.isNaN_ofInt _, rfl⟩
  | decimal x =>
    obtain ⟨hwhole, -⟩ := Option.filter_eq_some_iff.1 h
    exact ⟨rfl, x, rfl, isNaN_of_whole? h, (Binary64.ordinal_of_whole? hwhole).2⟩
  | null | text | boolean | instant => cases h

/-- Numbers of one place have an order. -/
theorem compare?_of_ordinal {x y : Binary64} (hnumeric : u.isNumeric = true)
    (hu : u.number? = some x) (hv : v.number? = some y) (hx : x.isNaN = false)
    (hy : y.isNaN = false) (h : x.ordinal = y.ordinal) (hnull : v.isNull = false) :
    u.compare? v = some .eq := by
  have hpresent : u.isNull = false := by cases u <;> first | rfl | cases hnumeric
  simp [compare?, hpresent, hnull, hnumeric, numbers?, hu, hv, Binary64.compare?, hx, hy, h]

/-- What is known of a value from its identity: the number of an integer, however it is written, the
    instant of a timestamp, and everything else as it is. -/
inductive KnownAs : Value → UniqueKey → Prop
  | integer {v : Value} {n : Int} : v.whole? = some n → KnownAs v (.integer n)
  | decimal {x : Binary64} : KnownAs (decimal x) (.decimal x)
  | text {s : String} : KnownAs (text s) (.text s)
  | boolean {b : Bool} : KnownAs (boolean b) (.boolean b)
  | instant {t : Timestamp} {nanos : Int} : t.nanos = nanos → KnownAs (instant t) (.instant nanos)

theorem knownAs_of_key? (h : v.key? = some key) : v.KnownAs key := by
  cases v with
  | null => cases h
  | integer i =>
    cases h
    exact .integer rfl
  | decimal x =>
    have hkey := h
    simp only [key?] at hkey
    split at hkey
    · split at hkey
      · cases hkey
        exact .integer (whole?_of_key? h)
      · cases hkey
        exact .decimal
    · cases hkey
      exact .decimal
  | text s =>
    cases h
    exact .text
  | boolean b =>
    cases h
    exact .boolean
  | instant t =>
    cases h
    exact .instant rfl

/-- What shares its identity with a value that is no NaN is none either. -/
theorem isNaN_of_key? (huk : u.key? = some key) (hvk : v.key? = some key) (h : u.isNaN = false) :
    v.isNaN = false := by
  cases knownAs_of_key? hvk with
  | integer hwhole => exact isNaN_of_whole? hwhole
  | decimal =>
    cases knownAs_of_key? huk with
    | decimal => exact h
  | text | boolean | instant => rfl

/-- Values of one identity have an order, which finds them equal. -/
theorem compare?_of_key? (hu : u.isNaN = false) (hv : v.isNaN = false) (huk : u.key? = some key)
    (hvk : v.key? = some key) : u.compare? v = some .eq := by
  cases knownAs_of_key? huk with
  | integer hun =>
    cases knownAs_of_key? hvk with
    | integer hvn =>
      obtain ⟨hnumeric, x, hux, hx, hxn⟩ := number?_of_whole? hun
      obtain ⟨hnumeric', y, hvy, hy, hyn⟩ := number?_of_whole? hvn
      have hnull : v.isNull = false := by cases v <;> first | rfl | cases hnumeric'
      exact compare?_of_ordinal hnumeric hux hvy hx hy (hxn.trans hyn.symm) hnull
  | decimal =>
    cases knownAs_of_key? hvk with
    | decimal => exact compare?_of_ordinal rfl rfl rfl hu hu rfl rfl
  | @text s =>
    cases knownAs_of_key? hvk with
    | text =>
      have hself : compareText s s = .eq := by simp [compareText]
      exact congrArg some hself
  | @boolean b =>
    cases knownAs_of_key? hvk with
    | boolean => cases b <;> rfl
  | @instant s nanos hs =>
    cases knownAs_of_key? hvk with
    | @instant t _ ht =>
      have hself : compare s.nanos t.nanos = .eq := Int.compare_eq_eq.2 (hs.trans ht.symm)
      exact congrArg some hself

end Value

/-! ## Rows that repeat a value -/

theorem Store.require_ne_duplicateKey (s : Store) (name : String) {column shown : String} :
    s.require name ≠ .error (.duplicateKey column shown) := by
  unfold require
  split <;> exact fun h => nomatch h

/-- A row repeats, in the unique column of a name, a value that one of some rows holds there.  The
    complaint shows this value, and a condition that compares the column with it finds the other
    row, unless the value is not a number. -/
structure Schema.Repeats (s : Schema) (rows : List Tuple) (tuple : Tuple)
    (column shown : String) : Prop where
  unique : ∃ c ∈ s.columns, c.name = column ∧ c.isUnique = true
  shows : shown = ((s.rowOf tuple).getD column).display
  found : ((s.rowOf tuple).getD column).isNaN = false → ∃ old ∈ rows,
    (Predicate.compare column .eq ((s.rowOf tuple).getD column)).holds (s.rowOf old) = true

namespace Schema

variable {s : Schema} {rows : List Tuple} {tuple old : Tuple} {column shown : String}

/-- A row with the identity of another one in a unique column repeats its value. -/
theorem repeats_of_key? {i : Nat} {c : Column} {key : UniqueKey} (hc : s.columns[i]? = some c)
    (hunique : c.isUnique = true) (hold : old ∈ rows) (holdKey : (old.cell i).key? = some key)
    (hkey : (tuple.cell i).key? = some key) :
    s.Repeats rows tuple c.name (tuple.cell i).display := by
  have hplace : s.position? c.name = some i := position?_eq_some_iff.2 ⟨c, hc, rfl⟩
  refine ⟨⟨c, List.mem_of_getElem? hc, rfl, hunique⟩, by rw [getD_rowOf hplace], ?_⟩
  rw [getD_rowOf hplace]
  intro hnan
  have hnan' : (old.cell i).isNaN = false := Value.isNaN_of_key? hkey holdKey hnan
  refine ⟨old, hold, ?_⟩
  have horder := Value.compare?_of_key? hnan' hnan holdKey hkey
  rw [Predicate.holds, CompareOp.holds_eq, getD_rowOf hplace,
    Value.looselyEquals_of_compare? horder]
  rfl

/-- Assignments are not refused for a repeated value. -/
theorem resolve_ne_duplicateKey {assignments : List (String × Value)} :
    s.resolve assignments ≠ .error (.duplicateKey column shown) := by
  induction assignments with
  | nil => exact fun h => nomatch h
  | cons a assignments ih =>
    intro h
    simp only [resolve, bind_eq_error] at h
    rcases h with hname | ⟨c, -, hcoerce | ⟨v, -, hnull | ⟨_, -, hrest | ⟨_, -, h⟩⟩⟩⟩
    · unfold require at hname
      split at hname <;> cases hname
    · obtain ⟨_, _, hcause, -⟩ := ColumnType.coerce_eq_error hcoerce
      cases hcause
    · unfold checkNull at hnull
      split at hnull <;> cases hnull
    · exact ih hrest
    · cases h

end Schema

namespace Table

variable {t : Table} {column shown : String}

/-- A batch fails for a repeated value at a row that repeats one of the table or of the rows of the
    batch before it. -/
theorem repeats_of_insertRows {clock : Nat → Timestamp} {rows : List Row}
    (h : t.insertRows clock rows = .error (.duplicateKey column shown)) :
    ∃ before row after tuples tuple, rows = before ++ row :: after ∧
      t.insertRows clock before = .ok (tuples, t.append tuples) ∧
      t.schema.complete (clock before.length) (t.schema.highestSerial (t.rows ++ tuples)) row =
        .ok tuple ∧
      t.schema.Repeats (t.rows ++ tuples) tuple column shown := by
  obtain ⟨before, row, after, tuples, hrows, hbefore, hrefuses⟩ := refuses_of_insertRows h
  refine ⟨before, row, after, tuples, ?_⟩
  generalize hcause : SqlError.duplicateKey column shown = cause at hrefuses
  cases hrefuses with
  | undeclared | exhausted | absent => cases hcause
  | unfit hc hv hcoerce =>
    obtain ⟨_, _, rfl, -⟩ := ColumnType.coerce_eq_error hcoerce
    cases hcause
  | repeated htakes hc hunique hold holdKey hkey =>
    cases hcause
    exact ⟨_, hrows, hbefore, Schema.complete_eq_ok_iff.2 ⟨htakes, rfl⟩,
      Schema.repeats_of_key? hc hunique hold holdKey hkey⟩

/-- A row that assignments leave in the place of one of a table: it does not satisfy the condition and
    is as it was, or it is what they make of one that does. -/
inductive LeavesRow (t : Table) (p : Row → Bool) (places : List (Nat × Value)) : Tuple → Prop
  | untouched {old} : old ∈ t.rows → t.selects p old = false → LeavesRow t p places old
  | written {old} : old ∈ t.rows → t.selects p old = true → LeavesRow t p places (old.assign places)

theorem leavesRow_of_mem_assigned {p : Row → Bool} {places : List (Nat × Value)} {tuple : Tuple}
    (h : tuple ∈ t.assigned p places) : t.LeavesRow p places tuple := by
  obtain ⟨old, hold, rfl⟩ := List.mem_map.1 h
  split
  · next hp => exact .written hold hp
  · next hp => exact .untouched hold (eq_false_of_ne_true hp)

/-- An UPDATE fails for a repeated value at a row that, after the assignments, repeats one of the
    rows before it. -/
theorem repeats_of_update {p : Row → Bool} {assignments : List (String × Value)}
    (h : t.update p assignments = .error (.duplicateKey column shown)) :
    ∃ places before tuple after, t.schema.resolve assignments = .ok places ∧
      t.assigned p places = before ++ tuple :: after ∧
      (∀ row ∈ before ++ [tuple], t.LeavesRow p places row) ∧
      t.schema.Repeats before tuple column shown := by
  simp only [update, bind_eq_error, mergeFrom_replacements, ← Schema.keySets_nil] at h
  rcases h with hresolve | ⟨places, hplaces, henroll | ⟨_, -, h⟩⟩
  · exact absurd hresolve Schema.resolve_ne_duplicateKey
  · obtain ⟨before, tuple, after, hrows, hlast⟩ := Schema.enrollAll_eq_error henroll
    obtain ⟨i, c, old, key, hc, hunique, hold, holdKey, hkey, hcause⟩ :=
      Schema.enroll_keySets_eq_error hlast
    cases hcause
    have hleft : ∀ row ∈ before ++ [tuple], t.LeavesRow p places row := by
      intro row hrow
      have hmem : row ∈ t.assigned p places := by
        rw [hrows, List.append_cons]
        exact List.mem_append_left after hrow
      exact leavesRow_of_mem_assigned hmem
    exact ⟨places, before, tuple, after, hplaces, hrows, hleft,
      Schema.repeats_of_key? hc hunique hold holdKey hkey⟩
  · cases h

end Table

/-- **What is refused as a repeated value can be found.**  Values of one identity, neither of them a
    NaN, are equal and have an order that finds them equal.  So when a batch of new rows is refused
    for a repeated value in a column, the first row that could not be added repeats the shown value
    of a row of the table or of a row of the batch before it, and the condition that the column
    equals this value finds that row.  When an UPDATE is refused for one, so it is with the rows that
    it would have left: the row found is one of the table that the UPDATE does not touch, or one of
    the rows that it writes. -/
theorem duplicates_found :
    (∀ (a b : Value) (key : UniqueKey), a.isNaN = false → b.isNaN = false → a.key? = some key →
      b.key? = some key → a.looselyEquals b = true ∧ a.compare? b = some .eq) ∧
    (∀ (s s' : Store) (clock : Nat → Timestamp) (name : String) (rows : List Row)
        (column shown : String),
      Operation.insertRows clock name rows s = (.error (.duplicateKey column shown), s') →
      s' = s ∧ ∃ t before row after tuples tuple, s.require name = .ok t ∧
        rows = before ++ row :: after ∧
        t.insertRows clock before = .ok (tuples, t.append tuples) ∧
        t.schema.complete (clock before.length) (t.schema.highestSerial (t.rows ++ tuples)) row =
          .ok tuple ∧
        t.schema.Repeats (t.rows ++ tuples) tuple column shown) ∧
    ∀ (s s' : Store) (name : String) (p : Row → Bool) (assignments : List (String × Value))
        (column shown : String),
      Operation.updateRows name p assignments s = (.error (.duplicateKey column shown), s') →
      s' = s ∧ ∃ t places before tuple after, s.require name = .ok t ∧
        t.schema.resolve assignments = .ok places ∧
        t.assigned p places = before ++ tuple :: after ∧
        (∀ row ∈ before ++ [tuple], t.LeavesRow p places row) ∧
        t.schema.Repeats before tuple column shown := by
  refine ⟨fun a b key ha hb hak hbk => ?_, fun s s' clock name rows column shown h => ?_,
    fun s s' name p assignments column shown h => ?_⟩
  · have horder := Value.compare?_of_key? ha hb hak hbk
    exact ⟨by rw [Value.looselyEquals_of_compare? horder]; rfl, horder⟩
  · obtain ⟨rfl, htable | ⟨t, ht, hins⟩⟩ := Operation.insertRows_eq_error h
    · exact absurd htable (Store.require_ne_duplicateKey _ _)
    · obtain ⟨before, row, after, tuples, tuple, hrepeats⟩ := Table.repeats_of_insertRows hins
      exact ⟨rfl, t, before, row, after, tuples, tuple, ht, hrepeats⟩
  · obtain ⟨rfl, htable | ⟨t, ht, hupd⟩⟩ := Operation.updateRows_eq_error h
    · exact absurd htable (Store.require_ne_duplicateKey _ _)
    · obtain ⟨places, before, tuple, after, hrepeats⟩ := Table.repeats_of_update hupd
      exact ⟨rfl, t, places, before, tuple, after, ht, hrepeats⟩

/-- A store with a table of two numbers, one of them written as a decimal. -/
def twoNumbersStore : Store :=
  runCalls [.create "t" [(Column.ofName "n" .integer).asUnique],
    .insert (fun _ => ⟨"", .date, 0⟩) "t"
      [.ofCells [("n", .decimal (.ofInt 3))], .ofCells [("n", .integer 4)]]]
    (.ofSettings ⟨.reject, .apply, false, 3⟩ fun _ => ⟨"", .date, 0⟩)

/-- An integer repeats a decimal of the table; and with one number for both rows the second row
    repeats the first one. -/
theorem duplicates_found_in_two :
    let clock : Nat → Timestamp := fun _ => ⟨"", .date, 0⟩
    let rows : List Row := [.ofCells [("n", .integer 5)], .ofCells [("n", .integer 3)]]
    (Value.integer 3).looselyEquals (.decimal (.ofInt 3)) = true ∧
      (Operation.insertRows clock "t" rows twoNumbersStore).1 =
        .error (.duplicateKey "n" "3") ∧
      (∃ t tuples tuple, twoNumbersStore.require "t" = .ok t ∧
        t.schema.Repeats (t.rows ++ tuples) tuple "n" "3") ∧
      (Operation.updateRows "t" (fun _ => true) [("n", .integer 7)] twoNumbersStore).1 =
        .error (.duplicateKey "n" "7") ∧
      ∃ t places before tuple after, twoNumbersStore.require "t" = .ok t ∧
        t.assigned (fun _ => true) places = before ++ tuple :: after ∧
        (∀ row ∈ before ++ [tuple], t.LeavesRow (fun _ => true) places row) ∧
        t.schema.Repeats before tuple "n" "7" := by
  intro clock rows
  obtain ⟨hkeys, hinsert, hupdate⟩ := duplicates_found
  have hthree := hkeys (.integer 3) (.decimal (.ofInt 3)) (.integer 3) rfl
    (Binary64.isNaN_ofInt 3) rfl (by decide +kernel)
  have hinserted : (Operation.insertRows clock "t" rows twoNumbersStore).1 =
      .error (.duplicateKey "n" "3") := by
    decide +kernel
  have hupdated : (Operation.updateRows "t" (fun _ => true) [("n", .integer 7)]
      twoNumbersStore).1 = .error (.duplicateKey "n" "7") := by
    decide +kernel
  obtain ⟨-, t, _, _, _, tuples, tuple, ht, -, -, -, hrepeats⟩ :=
    hinsert twoNumbersStore _ clock "t" rows "n" "3" (Prod.fst_eq_iff.1 hinserted)
  obtain ⟨-, u, places, before, tuple', after, hu, -, hassigned, hleft, hrepeats'⟩ :=
    hupdate twoNumbersStore _ "t" (fun _ => true) [("n", .integer 7)] "n" "7"
      (Prod.fst_eq_iff.1 hupdated)
  exact ⟨hthree.1, hinserted, ⟨t, tuples, tuple, ht, hrepeats⟩, hupdated,
    u, places, before, tuple', after, hu, hassigned, hleft, hrepeats'⟩

end PocketSql
