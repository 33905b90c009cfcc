/-
  Rows that are built from cells.

  * `Row.names_ofCells`, `Row.get?_ofCells`: the columns of such a row, each once and at its first
    place, and what they hold: of several cells of a column, the last one;
  * `Row.get?_ofCells_perm`: if no two cells are of one column, their order does not matter;
  * `Row.project_spec`: what a projection shows of a row.
-/
import Mathlib.Data.List.Induction
import Mathlib.Data.List.Nodup
import PocketSql.Proofs.Table.Assignment

namespace PocketSql

variable {cells : List (String × Value)} {name : String} {v : Value}

/-! ## The last cell of a column -/

theorem lookup_cell_cons (column : String) (v : Value) (cells : List (String × Value)) (name : String) :
    ((column, v) :: cells).lookup name = if name = column then some v else cells.lookup name := by
  by_cases h : name = column
  · simp [h]
  · simp [List.lookup_cons, beq_false_of_ne h, h]

theorem lastAssigned_concat (cells : List (String × Value)) (cell : String × Value)
    (name : String) :
    lastAssigned (cells ++ [cell]) name =
      if name = cell.1 then some cell.2 else lastAssigned cells name := by
  rw [lastAssigned, List.reverse_concat, lookup_cell_cons, lastAssigned]

theorem mem_of_lastAssigned (h : lastAssigned cells name = some v) : (name, v) ∈ cells := by
  obtain ⟨before, after, hsplit, -⟩ := List.lookup_eq_some_iff.1 h
  refine List.mem_reverse.1 ?_
  rw [hsplit]
  exact List.mem_append_right before List.mem_cons_self

theorem exists_lastAssigned_iff :
    (∃ v, lastAssigned cells name = some v) ↔ name ∈ cells.map (·.1) := by
  rw [← Option.isSome_iff_exists, lastAssigned, List.lookup_isSome_iff, List.mem_map]
  simp only [List.mem_reverse, beq_iff_eq, @eq_comm _ name]

/-- If no two cells are of one column, every cell is the last one of its column. -/
theorem lastAssigned_eq_some_iff (h : (cells.map (·.1)).Nodup) :
    lastAssigned cells name = some v ↔ (name, v) ∈ cells := by
  refine ⟨mem_of_lastAssigned, fun hcell => ?_⟩
  obtain ⟨w, hw⟩ := exists_lastAssigned_iff.2 (List.mem_map_of_mem hcell : name ∈ cells.map (·.1))
  have hsame := List.inj_on_of_nodup_map h (mem_of_lastAssigned hw) hcell rfl
  exact hw.trans (congrArg some (Prod.ext_iff.1 hsame).2)

/-! ## Rows -/

namespace Row

variable {row : Row}

theorem mem_names_iff : name ∈ row.names ↔ ∃ v, row.get? name = some v := by
  rw [← Option.isSome_iff_exists, get?, List.lookup_isSome_iff, names, List.mem_map]
  simp only [beq_iff_eq, @eq_comm _ name]

theorem names_put (row : Row) (name : String) (v : Value) :
    (row.put name v).names = if name ∈ row.names then row.names else row.names ++ [name] := by
  obtain ⟨cells⟩ := row
  induction cells with
  | nil => rfl
  | cons cell cells ih =>
    by_cases hcell : cell.1 = name
    · simp [put, names, putCell, hcell]
    · simp only [put, names] at ih
      by_cases hmem : name ∈ cells.map (·.1) <;>
        simp [put, names, putCell, hcell, Ne.symm hcell, ih, hmem]

theorem get?_put (row : Row) (name : String) (v : Value) (other : String) :
    (row.put name v).get? other = if other = name then some v else row.get? other := by
  obtain ⟨cells⟩ := row
  induction cells with
  | nil => by_cases h : other = name <;> simp [put, get?, putCell, h]
  | cons cell cells ih =>
    obtain ⟨column, old⟩ := cell
    simp only [put, get?] at ih
    by_cases hcolumn : column = name
    · by_cases h : other = name <;> simp [put, get?, putCell, hcolumn, lookup_cell_cons, h]
    · by_cases h : other = column
      · simp [put, get?, putCell, hcolumn, h]
      · simp [put, get?, putCell, hcolumn, lookup_cell_cons, h, ih]

theorem ofCells_concat (cells : List (String × Value)) (cell : String × Value) :
    ofCells (cells ++ [cell]) = (ofCells cells).put cell.1 cell.2 := by
  simp [ofCells]

/-- A repeated column stands once, at its first place. -/
theorem names_ofCells (cells : List (String × Value)) :
    (ofCells cells).names = (cells.map (·.1)).eraseDups := by
  induction cells using List.reverseRecOn with
  | nil => rfl
  | append_singleton cells cell ih =>
    rw [ofCells_concat, names_put, ih, List.map_append, List.eraseDups_append]
    by_cases hmem : cell.1 ∈ cells.map (·.1)
    · simp [List.removeAll, hmem]
    · simp [List.removeAll, hmem, List.eraseDups_cons]

/-- A repeated column holds the last of its cells. -/
theorem get?_ofCells (cells : List (String × Value)) (name : String) :
    (ofCells cells).get? name = lastAssigned cells name := by
  induction cells using List.reverseRecOn with
  | nil => rfl
  | append_singleton cells cell ih => rw [ofCells_concat, get?_put, lastAssigned_concat, ih]

theorem get?_ofCells_perm {cells' : List (String × Value)} (h : (cells.map (·.1)).Nodup)
    (hperm : cells.Perm cells') (name : String) :
    (ofCells cells).get? name = (ofCells cells').get? name := by
  have h' : (cells'.map (·.1)).Nodup := (hperm.map _).nodup_iff.1 h
  rw [get?_ofCells, get?_ofCells]
  refine Option.ext fun v => ?_
  rw [lastAssigned_eq_some_iff h, lastAssigned_eq_some_iff h', hperm.mem_iff]

/-- A projection on columns of a row shows each of them once, with what the row holds in it. -/
theorem project_spec {columns : List String} (h : ∀ name ∈ columns, name ∈ row.names) :
    (row.project columns).names = columns.eraseDups ∧
      ∀ name ∈ columns, (row.project columns).get? name = row.get? name := by
  have hcells : ((columns.filterMap fun name =>
      (row.get? name).map fun v => (name, v)).map (·.1)) = columns := by
    induction columns with
    | nil => rfl
    | cons name columns ih =>
      obtain ⟨hname, hrest⟩ := List.forall_mem_cons.1 h
      obtain ⟨v, hv⟩ := mem_names_iff.1 hname
      simp [hv, ih hrest]
  constructor
  · rw [project, names_ofCells, hcells]
  · intro name hname
    obtain ⟨v, hv⟩ := exists_lastAssigned_iff.2 (hcells.symm ▸ hname)
    rw [project, get?_ofCells, hv]
    obtain ⟨column, -, hfound⟩ := List.mem_filterMap.1 (mem_of_lastAssigned hv)
    obtain ⟨w, hw, ⟨⟩⟩ := Option.map_eq_some_iff.1 hfound
    exact hw.symm

end Row

end PocketSql
