/-
  What assignments put into a row.

  * `lastAssigned` is the value that assignments give a column;
  * `Schema.cell_assign`: after assignments a column holds its last value, fitted to its type, and
    a column without one holds what it held; `Schema.getD_rowOf_assign`: so it shows what it showed.
-/
import PocketSql.Proofs.Table.Changes
import PocketSql.Proofs.Table.Lookup

namespace PocketSql

/-- The value that assignments give to a column: of two, the later one. -/
def lastAssigned (assignments : List (String × Value)) (column : String) : Option Value :=
  assignments.reverse.lookup column

theorem lastAssigned_cons (name : String) (v : Value) (assignments : List (String × Value))
    (column : String) :
    lastAssigned ((name, v) :: assignments) column =
      (lastAssigned assignments column).or (if column = name then some v else none) := by
  simp only [lastAssigned, List.reverse_cons, List.lookup_append, List.lookup_cons, List.lookup_nil]
  by_cases h : column = name
  · simp [h]
  · simp [h, beq_eq_false_iff_ne.2 h]

namespace Tuple

theorem cell_set_self {tuple : Tuple} {i : Nat} (h : i < tuple.length) (v : Value) :
    cell (tuple.set i v) i = v := by
  simp [cell, List.getD_eq_getElem?_getD, h]

theorem cell_set_ne {tuple : Tuple} {i j : Nat} (h : i ≠ j) (v : Value) :
    cell (tuple.set i v) j = tuple.cell j := by
  simp [cell, List.getD_eq_getElem?_getD, List.getElem?_set_ne h]

end Tuple

namespace Schema

variable {s : Schema} {i : Nat} {c : Column}

/-- A column holds after assignments the last value that they give it, and without one what it
    held. -/
theorem cell_assign {assignments : List (String × Value)} {places : List (Nat × Value)}
    {tuple : Tuple} (h : s.resolve assignments = .ok places)
    (hlen : tuple.length = s.columns.length) (hc : s.columns[i]? = some c) :
    (∀ v, lastAssigned assignments c.name = some v →
      c.type.coerce c.name v = .ok ((tuple.assign places).cell i)) ∧
    (lastAssigned assignments c.name = none → (tuple.assign places).cell i = tuple.cell i) := by
  induction assignments generalizing places tuple with
  | nil =>
    cases h
    exact ⟨fun _ hv => absurd hv (Option.some_ne_none _).symm, fun _ => rfl⟩
  | cons a assignments ih =>
    obtain ⟨name, v⟩ := a
    simp only [resolve, bind_eq_ok] at h
    obtain ⟨d, hd, w, hw, w', hw', rest, hrest, h⟩ := h
    cases h
    obtain ⟨rfl, -⟩ := checkNull_eq_ok hw'
    obtain ⟨j, hj, hdj⟩ := require_eq_ok hd
    obtain ⟨e, hej, hname⟩ := position?_eq_some_iff.1 hj
    obtain rfl : d = e := Option.some.inj (hdj.symm.trans hej)
    -- the first value is written first, so that the later assignments see it in its place
    have hassign : tuple.assign (((s.position? name).getD 0, w') :: rest) =
        Tuple.assign (tuple.set j w') rest := by simp [Tuple.assign, hj]
    have hlen' : (tuple.set j w').length = s.columns.length := by rw [List.length_set, hlen]
    obtain ⟨hsome, hnone⟩ := ih hrest hlen'
    rw [hassign, lastAssigned_cons]
    cases hlast : lastAssigned assignments c.name with
    | some u =>
      exact ⟨fun x hx => hsome x (hlast.trans hx), fun hx => absurd hx (Option.some_ne_none u)⟩
    | none =>
      rw [hnone hlast]
      by_cases hcd : c.name = name
      · obtain rfl : i = j := place_unique hc hdj (hcd.trans hname.symm)
        obtain rfl : c = d := Option.some.inj (hc.symm.trans hdj)
        have hi : i < tuple.length := hlen ▸ (List.getElem?_eq_some_iff.1 hc).1
        rw [Tuple.cell_set_self hi]
        simp only [hcd, if_true, Option.none_or, Option.some.injEq]
        exact ⟨fun x hx => hx ▸ hname ▸ hw, fun hx => absurd hx (Option.some_ne_none v)⟩
      · have hji : j ≠ i := by
          rintro rfl
          obtain rfl : c = d := Option.some.inj (hc.symm.trans hdj)
          exact hcd hname
        rw [Tuple.cell_set_ne hji]
        simp [hcd]

/-- A row shows in a column without an assignment what it showed before, also if there is no such
    column. -/
theorem getD_rowOf_assign {assignments : List (String × Value)} {places : List (Nat × Value)}
    {tuple : Tuple} {name : String} (h : s.resolve assignments = .ok places)
    (hlen : tuple.length = s.columns.length) (hfree : lastAssigned assignments name = none) :
    (s.rowOf (tuple.assign places)).getD name = (s.rowOf tuple).getD name := by
  by_cases hname : name ∈ s.names
  · obtain ⟨_, hfound⟩ := exists_require_iff.2 hname
    obtain ⟨i, hi, -⟩ := require_eq_ok hfound
    obtain ⟨c, hc, rfl⟩ := position?_eq_some_iff.1 hi
    rw [getD_rowOf hi, getD_rowOf hi]
    exact (cell_assign h hlen hc).2 hfree
  · rw [getD_rowOf_of_notMem hname, getD_rowOf_of_notMem hname]

end Schema

end PocketSql
