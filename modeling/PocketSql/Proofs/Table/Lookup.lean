/-
  Columns and cells by column names.

  * `Schema.getD_rowOf`: a stored row shows under a column name the cell at the place of the column;
    `Schema.names_rowOf`: it shows all columns of the table;
  * `Schema.position?_eq_some_iff`: a column is found at its place;
  * `Schema.requireAll_eq_ok_iff`: names are accepted if all are names of columns.
-/
import Mathlib.Data.List.Nodup
import PocketSql.Proofs.Table.Insertion

namespace PocketSql

theorem lookup_names {columns : List Column} {name : String} {i : Nat}
    (h : columns.findIdx? (·.name == name) = some i) (tuple : Tuple) :
    (((columnNames columns).zip tuple).lookup name).getD .null = tuple.cell i := by
  induction columns generalizing i tuple with
  | nil => cases h
  | cons c columns ih =>
    cases tuple with
    | nil => rfl
    | cons v tuple =>
      rw [List.findIdx?_cons] at h
      by_cases hc : c.name = name
      · have hi : i = 0 := by simpa [hc] using h.symm
        simp [hi, columnNames, hc]
      · obtain ⟨j, hj, rfl⟩ : ∃ j, columns.findIdx? (·.name == name) = some j ∧ j + 1 = i := by
          simpa [hc] using h
        have hne : (name == c.name) = false := by simpa using Ne.symm hc
        simpa [columnNames, List.lookup_cons, hne] using ih hj tuple

namespace Schema

variable {s : Schema} {name : String} {i j : Nat} {c d : Column}

theorem getD_rowOf (h : s.position? name = some i) (tuple : Tuple) :
    (s.rowOf tuple).getD name = tuple.cell i :=
  lookup_names h tuple

theorem getD_rowOf_of_notMem (h : name ∉ s.names) (tuple : Tuple) :
    (s.rowOf tuple).getD name = .null := by
  have hnone : (s.rowOf tuple).get? name = none := by
    rw [Row.get?, List.lookup_eq_none_iff]
    rintro ⟨column, v⟩ hcell
    have hcolumn : column ∈ s.names := (List.of_mem_zip hcell).1
    exact bne_iff_ne.2 (ne_of_mem_of_not_mem hcolumn h).symm
  rw [Row.getD, hnone, Option.getD_none]

theorem names_rowOf {tuple : Tuple} (h : tuple.length = s.columns.length) :
    (s.rowOf tuple).names = s.names := by
  refine List.map_fst_zip (Nat.le_of_eq ?_)
  rw [names, columnNames, List.length_map, h]

/-- Two columns of one name are one column. -/
theorem place_unique (hc : s.columns[i]? = some c) (hd : s.columns[j]? = some d)
    (hname : c.name = d.name) : i = j := by
  have hnames : (columnNames s.columns)[i]? = (columnNames s.columns)[j]? := by
    simp [columnNames, hc, hd, hname]
  have hi : i < (columnNames s.columns).length := by
    rw [columnNames, List.length_map]
    exact (List.getElem?_eq_some_iff.1 hc).1
  exact (List.getElem?_inj hi s.names_nodup).1 hnames

theorem position?_eq_some_iff :
    s.position? name = some i ↔ ∃ c, s.columns[i]? = some c ∧ c.name = name := by
  constructor
  · intro h
    obtain ⟨hi, hname, -⟩ := List.findIdx?_eq_some_iff_getElem.1 h
    exact ⟨_, List.getElem?_eq_getElem hi, by simpa using hname⟩
  · rintro ⟨c, hc, rfl⟩
    cases hpos : s.position? c.name with
    | none => simpa using List.findIdx?_eq_none_iff.1 hpos c (List.mem_of_getElem? hc)
    | some j =>
      obtain ⟨hj, hname, -⟩ := List.findIdx?_eq_some_iff_getElem.1 hpos
      rw [place_unique (List.getElem?_eq_getElem hj) hc (by simpa using hname)]

theorem exists_require_iff : (∃ c, s.require name = .ok c) ↔ name ∈ s.names := by
  have hfound : (s.column? name).isSome ↔ name ∈ s.names := by
    simp [column?, names, columnNames, List.find?_isSome]
  rw [← hfound, require]
  cases s.column? name with
  | none => simp
  | some c => simp

theorem requireAll_eq_ok_iff {required : List String} :
    s.requireAll required = .ok () ↔ ∀ name ∈ required, name ∈ s.names := by
  induction required with
  | nil => simp [requireAll]
  | cons name rest ih =>
    rw [List.forall_mem_cons, ← ih, ← exists_require_iff]
    simp [requireAll, bind_eq_ok]

end Schema

end PocketSql
