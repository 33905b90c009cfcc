/-
  Inserted rows, looked for by the literals that were given.

  * `Operation.insert_eq_ok`: when an INSERT succeeds, and what it does;
  * `Operation.stores_of_insert`: the rows given stand at the end of the table;
  * `insert_found_iff`: a SELECT for rows that equal a literal finds the row that was given it, unless
    the column respells it.
-/
import PocketSql.Proofs.Store.Batch
import PocketSql.Proofs.Store.Matching
import PocketSql.Proofs.Table.Fitting

namespace PocketSql

theorem CompareOp.holds_eq (cell literal : Value) :
    CompareOp.eq.holds cell literal = cell.looselyEquals literal := by
  unfold holds
  split
  · next h => rw [Value.looselyEquals, if_pos h]
  · rfl

theorem Table.mem_matching {t : Table} {tuple : Tuple} (h : tuple ∈ t.rows) (p : Predicate) :
    t.schema.rowOf tuple ∈ t.matching p ↔ p.holds (t.schema.rowOf tuple) = true := by
  rw [matching, List.mem_filter]
  exact and_iff_right (List.mem_map_of_mem h)

namespace Operation

variable {s s' : Store} {name : String} {t : Table} {clock : Nat → Timestamp}
  {columns : Option (List String)} {rows : List (List Value)}

/-- The new row that an INSERT gives by values. -/
def givenRow (t : Table) (columns : Option (List String)) (values : List Value) : Row :=
  Row.ofCells ((columns.getD t.schema.names).zip values)

theorem insert_eq_ok {n : Nat} :
    insert clock name columns rows s = (.ok n, s') ↔
      ∃ t inserted, s.require name = .ok t ∧
        (∀ values ∈ rows, values.length = (columns.getD t.schema.names).length) ∧
        insertRows clock name (rows.map (givenRow t columns)) s = (.ok inserted, s') ∧
        inserted.length = n := by
  simp only [insert, bind_eq_ok, read_eq_ok]
  constructor
  · rintro ⟨t, _, ⟨ht, rfl⟩, h⟩
    split at h
    · next hlengths =>
      obtain ⟨inserted, _, hins, hpure⟩ := bind_eq_ok.1 h
      obtain ⟨hcount, rfl⟩ := pure_eq_ok.1 hpure
      exact ⟨t, inserted, ht, by simpa using hlengths, hins, hcount⟩
    · cases h
  · rintro ⟨t, inserted, ht, hlengths, hins, hcount⟩
    refine ⟨t, s, ⟨ht, rfl⟩, ?_⟩
    rw [if_pos (by simpa using hlengths)]
    exact bind_eq_ok.2 ⟨inserted, s', hins, pure_eq_ok.2 ⟨hcount, rfl⟩⟩

/-- The rows given stand at the end of the table, in their order. -/
theorem stores_of_insert {settings : Settings} {outcome : Outcome} (ht : s.require name = .ok t)
    (h : execute settings clock (.insert name columns rows) s = (.ok outcome, s')) {k : Nat}
    {values : List Value} (hk : rows[k]? = some values) :
    ∃ t' tuple, s'.require name = .ok t' ∧ t'.schema = t.schema ∧
      t'.rows[t.rows.length + k]? = some tuple ∧
      t.schema.Stores (givenRow t columns values) tuple := by
  obtain ⟨n, u, hinsert, hpure⟩ := bind_eq_ok.1 h
  obtain ⟨-, rfl⟩ := pure_eq_ok.1 hpure
  obtain ⟨u, inserted, hu, -, hrows, -⟩ := insert_eq_ok.1 hinsert
  obtain rfl : t = u := Except.ok.inj (ht.symm.trans hu)
  obtain ⟨u, tuples, t', hu, hins, rfl, -⟩ := insertRows_eq_ok.1 hrows
  obtain rfl : t = u := Except.ok.inj (ht.symm.trans hu)
  obtain ⟨hprepare, rfl⟩ := Table.insertRows_eq_ok.1 hins
  have hrow : (rows.map (givenRow t columns))[k]? = some (givenRow t columns values) := by
    rw [List.getElem?_map, hk, Option.map_some]
  obtain ⟨tuple, htuple, hstores⟩ := Schema.prepareRows_stores hprepare hrow
  refine ⟨_, tuple, Store.require_put ht (Store.require_eq_ok ht).2, rfl, ?_, hstores⟩
  rw [List.getElem?_append_right (Nat.le_add_right _ _), Nat.add_sub_cancel_left, htuple]

end Operation

/-- **What was inserted is found by the literal given, unless it was respelled.**  A literal fitted
    to a column type equals the literal if and only if the type does not respell it.  So after an
    INSERT a SELECT for the rows that equal the literal shows the row that was given it if and only
    if the column does not respell it; only a boolean column does, and only of a truth word that is
    not in small letters. -/
theorem insert_found_iff {v : Value} (hv : v.isLiteral = true) :
    (∀ (type : ColumnType) (column : String) (w : Value), type.coerce column v = .ok w →
      (w.looselyEquals v = true ↔ ¬ type.Respells v)) ∧
    ∀ (settings : Settings) (clock : Nat → Timestamp) (s s' : Store) (name : String) (t : Table)
      (columns : Option (List String)) (rows : List (List Value)) (outcome : Outcome),
      s.require name = .ok t →
      Operation.execute settings clock (.insert name columns rows) s = (.ok outcome, s') →
      ∀ (k : Nat) (values : List Value) (column : String), rows[k]? = some values →
        (Operation.givenRow t columns values).get? column = some v →
        ∃ c ∈ t.schema.columns, c.name = column ∧ ∃ t' tuple shown, s'.require name = .ok t' ∧
          t'.rows[t.rows.length + k]? = some tuple ∧
          Operation.execute settings clock (.select (.allWhere name (.compare column .eq v))) s' =
            (.ok (.rows shown), s') ∧
          (t'.schema.rowOf tuple ∈ shown ↔ ¬ c.type.Respells v) := by
  refine ⟨fun _ _ _ h => ColumnType.looselyEquals_coerce hv h, ?_⟩
  intro settings clock s s' name t columns rows outcome ht h k values column hk hgiven
  obtain ⟨t', tuple, ht', hschema, htuple, hstores⟩ := Operation.stores_of_insert ht h hk
  obtain ⟨i, c, hi, rfl, hcoerce⟩ := hstores column v hgiven
  have hplace : t'.schema.position? c.name = some i :=
    Schema.position?_eq_some_iff.2 ⟨c, hschema ▸ hi, rfl⟩
  have hmem : c ∈ t.schema.columns := List.mem_of_getElem? hi
  have hcols : ∀ name ∈ (Predicate.compare c.name .eq v).columns, name ∈ t'.schema.names := by
    rw [hschema]
    exact List.forall_mem_singleton.2 (List.mem_map_of_mem hmem)
  refine ⟨c, hmem, rfl, t', tuple, _, ht', htuple, Operation.select_where ht' rfl hcols clock, ?_⟩
  rw [Table.mem_matching (List.mem_of_getElem? htuple), Predicate.holds, CompareOp.holds_eq,
    Schema.getD_rowOf hplace]
  exact ColumnType.looselyEquals_coerce hv hcoerce

/-- A table of truth values. -/
def flagsTable : Table :=
  .ofSchema ⟨"t", [Column.ofName "b" .boolean], by simp, by simp [columnNames], by decide⟩

theorem insert_found_true :
    let run := Operation.execute ⟨.reject, .apply, false, 3⟩ fun _ => ⟨"", .date, 0⟩
    let s := (run (.insert "t" none [[.text "no"], [.text "true"]]) ⟨[flagsTable]⟩).2
    (Value.boolean true).looselyEquals (.text "true") = true ∧
      ∃ t' tuple shown, s.require "t" = .ok t' ∧ t'.rows[1]? = some tuple ∧
        run (.select (.allWhere "t" (.compare "b" .eq (.text "true")))) s =
          (.ok (.rows shown), s) ∧
        t'.schema.rowOf tuple ∈ shown := by
  intro run s
  have hspelled : ∀ type : ColumnType, ¬ type.Respells (.text "true") := by
    rintro type ⟨-, _, word, ⟨⟩, hword, hsame, hne⟩
    revert hsame hne
    simp only [List.mem_cons, List.not_mem_nil, or_false] at hword
    rcases hword with rfl | rfl <;> decide
  have hinsert : (run (.insert "t" none [[.text "no"], [.text "true"]]) ⟨[flagsTable]⟩).1 =
      .ok (.affected 2 "2 rows inserted") := by decide +kernel
  obtain ⟨hequal, hfinds⟩ := insert_found_iff (v := .text "true") rfl
  obtain ⟨c, -, -, t', tuple, shown, ht', htuple, hshown, hfound⟩ :=
    hfinds _ _ ⟨[flagsTable]⟩ s "t" flagsTable none _ _ rfl (Prod.fst_eq_iff.1 hinsert) 1
      [.text "true"] "b" rfl (by decide)
  exact ⟨(hequal .boolean "b" (.boolean true) rfl).2 (hspelled _), t', tuple, shown, ht', htuple,
    hshown, hfound.2 (hspelled _)⟩

/-- A truth word in capital letters is stored, and not found. -/
theorem insert_lost_capitals :
    let run := Store.run ⟨.reject, .apply, false, 3⟩ fun _ => ⟨"", .date, 0⟩
    let created := (run .empty "CREATE TABLE t (b BOOLEAN)".toList).2
    let inserted := run created "INSERT INTO t VALUES ('TRUE')".toList
    inserted.1 = .ok (.affected 1 "1 row inserted") ∧
      (run inserted.2 "SELECT * FROM t".toList).1 = .ok (.rows [⟨[("b", .boolean true)]⟩]) ∧
      (run inserted.2 "SELECT * FROM t WHERE b = 'TRUE'".toList).1 = .ok (.rows []) ∧
      ColumnType.boolean.coerce "b" (.text "TRUE") = .ok (.boolean true) ∧
      (Value.boolean true).looselyEquals (.text "TRUE") = false := by
  decide +kernel

end PocketSql
