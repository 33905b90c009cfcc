/-
  The values that an INSERT is given, in the rows that it stores.

  * `Schema.Holds`: a stored row holds a value that it was given for a column, fitted to its type;
  * `Schema.Stores.holds_last`: of several values for one column it holds the last one, and
    `Schema.Stores.holds_all_iff`: so it holds all of them exactly if those for one column are the
    same when fitted;
  * `insert_keeps_values_iff`: what this says of an INSERT;
  * `insert_drops_repeated`: a list that names a column twice loses a value.
-/
import PocketSql.Proofs.Store.Retrieval
import PocketSql.Proofs.Table.Cells

namespace PocketSql

namespace Schema

variable {s : Schema} {cells : List (String × Value)} {tuple : Tuple}

/-- A stored row holds a value in a column, fitted to the type of the column. -/
def Holds (s : Schema) (tuple : Tuple) (cell : String × Value) : Prop :=
  ∃ (i : Nat) (c : Column), s.columns[i]? = some c ∧ c.name = cell.1 ∧
    c.type.coerce c.name cell.2 = .ok (tuple.cell i)

theorem Stores.holds_last (h : s.Stores (Row.ofCells cells) tuple) {column : String} {v : Value}
    (hlast : lastAssigned cells column = some v) : s.Holds tuple (column, v) := by
  obtain ⟨i, c, hc, rfl, hcoerce⟩ := h column v ((Row.get?_ofCells cells column).trans hlast)
  exact ⟨i, c, hc, rfl, hcoerce⟩

/-- Two values that a row holds in one column are the same when fitted. -/
theorem Holds.coerce_eq {a b : String × Value} (ha : s.Holds tuple a) (hb : s.Holds tuple b)
    (hname : a.1 = b.1) {c : Column} (hc : c ∈ s.columns) (hca : c.name = a.1) :
    c.type.coerce c.name a.2 = c.type.coerce c.name b.2 := by
  obtain ⟨k, hk⟩ := List.mem_iff_getElem?.1 hc
  obtain ⟨i, d, hd, hda, hfita⟩ := ha
  obtain ⟨j, e, he, heb, hfitb⟩ := hb
  obtain rfl : i = k := place_unique hd hk (hda.trans hca.symm)
  obtain rfl : j = i := place_unique he hk (heb.trans (hname.symm.trans hca.symm))
  obtain rfl : d = c := Option.some.inj (hd.symm.trans hk)
  obtain rfl : e = d := Option.some.inj (he.symm.trans hd)
  exact hfita.trans hfitb.symm

/-- A row that is stored for some cells holds all of them exactly if those of one column are the
    same when fitted. -/
theorem Stores.holds_all_iff (h : s.Stores (Row.ofCells cells) tuple) :
    (∀ cell ∈ cells, s.Holds tuple cell) ↔
      ∀ a ∈ cells, ∀ b ∈ cells, a.1 = b.1 → ∀ c ∈ s.columns, c.name = a.1 →
        c.type.coerce c.name a.2 = c.type.coerce c.name b.2 := by
  constructor
  · intro hall a ha b hb hname c hc hca
    exact (hall a ha).coerce_eq (hall b hb) hname hc hca
  · rintro hsame ⟨column, v⟩ hcell
    obtain ⟨w, hw⟩ := exists_lastAssigned_iff.2 (List.mem_map_of_mem hcell : column ∈ _)
    obtain ⟨i, c, hc, hname, hfit⟩ := h.holds_last hw
    refine ⟨i, c, hc, hname, ?_⟩
    exact (hsame _ hcell _ (mem_of_lastAssigned hw) rfl c (List.mem_of_getElem? hc) hname).trans hfit

end Schema

/-- **An INSERT loses no value exactly if those given for one column are the same when fitted.**  If
    an INSERT succeeds, each of its tuples has a value for every name of the column list, or for every
    column of the table if there is no list, and the row that is stored for it holds for each name
    the last of the values given, fitted to the type of the column.  So all values are there if the
    names are distinct, as those of the table are; and otherwise if and only if no column is given
    two values that its type tells apart. -/
theorem insert_keeps_values_iff {settings : Settings} {clock : Nat → Timestamp} {s s' : Store}
    {name : String} {t : Table} {columns : Option (List String)} {rows : List (List Value)}
    {outcome : Outcome} (ht : s.require name = .ok t)
    (h : Operation.execute settings clock (.insert name columns rows) s = (.ok outcome, s'))
    {k : Nat} {values : List Value} (hk : rows[k]? = some values) :
    let names := columns.getD t.schema.names
    let cells := names.zip values
    values.length = names.length ∧
      ∃ t' tuple, s'.require name = .ok t' ∧ t'.schema = t.schema ∧
        t'.rows[t.rows.length + k]? = some tuple ∧
        (∀ column v, lastAssigned cells column = some v → t.schema.Holds tuple (column, v)) ∧
        (names.Nodup → ∀ cell ∈ cells, t.schema.Holds tuple cell) ∧
        ((∀ cell ∈ cells, t.schema.Holds tuple cell) ↔
          ∀ a ∈ cells, ∀ b ∈ cells, a.1 = b.1 → ∀ c ∈ t.schema.columns, c.name = a.1 →
            c.type.coerce c.name a.2 = c.type.coerce c.name b.2) := by
  intro names cells
  obtain ⟨t', tuple, ht', hschema, htuple, hstores⟩ := Operation.stores_of_insert ht h hk
  obtain ⟨n, _, hinsert, -⟩ := Operation.bind_eq_ok.1 h
  obtain ⟨u, _, hu, hlengths, -⟩ := Operation.insert_eq_ok.1 hinsert
  obtain rfl : t = u := Except.ok.inj (ht.symm.trans hu)
  have hlength : values.length = names.length := hlengths values (List.mem_of_getElem? hk)
  refine ⟨hlength, t', tuple, ht', hschema, htuple, fun _ _ => hstores.holds_last, fun hnodup => ?_,
    hstores.holds_all_iff⟩
  have hcells : (cells.map Prod.fst).Nodup := by
    rwa [List.map_fst_zip (Nat.le_of_eq hlength.symm)]
  rintro ⟨column, v⟩ hcell
  exact hstores.holds_last ((lastAssigned_eq_some_iff hcells).2 hcell)

/-- A table of numbers and texts. -/
def pairsTable : Table :=
  .ofSchema ⟨"t", [Column.ofName "a" .integer, Column.ofName "b" .text], by simp,
    by simp [columnNames, Column.ofName], by decide⟩

/-- Of two numbers for one column only the second one is stored. -/
theorem insert_keeps_values_last :
    let run := Operation.execute ⟨.reject, .apply, false, 3⟩ fun _ => ⟨"", .date, 0⟩
    let cells := ["a", "b", "a"].zip [.integer 1, .text "x", .integer 2]
    let s := (run (.insert "t" (some ["a", "b", "a"]) [[.integer 1, .text "x", .integer 2]])
      ⟨[pairsTable]⟩).2
    ∃ t tuple, s.require "t" = .ok t ∧ t.rows[0]? = some tuple ∧
      pairsTable.schema.Holds tuple ("a", .integer 2) ∧
      pairsTable.schema.Holds tuple ("b", .text "x") ∧
      ¬ ∀ cell ∈ cells, pairsTable.schema.Holds tuple cell := by
  intro run cells s
  have hinsert : (run (.insert "t" (some ["a", "b", "a"]) [[.integer 1, .text "x", .integer 2]])
      ⟨[pairsTable]⟩).1 = .ok (.affected 1 "1 row inserted") := by decide +kernel
  obtain ⟨-, t, tuple, ht, -, htuple, hlast, -, hall⟩ :=
    insert_keeps_values_iff (t := pairsTable) rfl (Prod.fst_eq_iff.1 hinsert) (k := 0) rfl
  refine ⟨t, tuple, ht, htuple, hlast "a" _ rfl, hlast "b" _ rfl, fun h => ?_⟩
  have hsame := hall.1 h ("a", .integer 1) (by simp) ("a", .integer 2) (by simp) rfl
    (Column.ofName "a" .integer) (by simp [pairsTable, Table.ofSchema]) rfl
  revert hsame
  decide

/-- A column list that names a column twice is accepted, and the first value is lost. -/
theorem insert_drops_repeated :
    let run := Store.run ⟨.reject, .apply, false, 3⟩ fun _ => ⟨"", .date, 0⟩
    let created := (run .empty "CREATE TABLE t (a INTEGER)".toList).2
    let inserted := run created "INSERT INTO t (a, a) VALUES (1, 2)".toList
    inserted.1 = .ok (.affected 1 "1 row inserted") ∧
      (run inserted.2 "SELECT * FROM t".toList).1 = .ok (.rows [⟨[("a", .integer 2)]⟩]) ∧
      ColumnType.integer.coerce "a" (.integer 1) = .ok (.integer 1) := by
  decide +kernel

end PocketSql
