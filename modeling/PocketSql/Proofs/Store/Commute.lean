/-
  Statements on different tables.

  * `Operation.Acts.comm`: operations that act on different names may run in either order, unless
    both declare columns;
  * `run_comm`: so may texts that name different tables, unless both create one.
-/
import PocketSql.Proofs.Store.Edit
import PocketSql.Proofs.Store.Validity

namespace PocketSql

/-- A statement that makes a table. -/
def Statement.creates : Statement → Bool
  | createTable _ _ => true
  | select _ | insert .. | update .. | delete .. | dropTable .. => false

theorem Statement.columns_eq_nil {statement : Statement} (h : statement.creates = false) :
    statement.columns = [] := by
  cases statement with
  | createTable => cases h
  | select | insert | update | delete | dropTable => rfl

/-- Operations on different names, of which one adds no table: each gives what it gives alone, and
    the changes of both are made. -/
theorem Operation.Acts.comm {α β : Type} {name name' : String} {columns columns' : List Column}
    {op : Operation α} {op' : Operation β} {s : Store}
    (h : op.Acts name columns (s.table? name)) (h' : op'.Acts name' columns' (s.table? name'))
    (hne : name ≠ name') (hadd : columns = [] ∨ columns' = []) :
    (op' (op s).2).1 = (op' s).1 ∧ (op (op' s).2).1 = (op s).1 ∧
      (op' (op s).2).2 = (op (op' s).2).2 := by
  obtain ⟨result, edit, hedit, hrun⟩ := h
  obtain ⟨result', edit', hedit', hrun'⟩ := h'
  -- each change leaves the table that the other operation reads
  have hafter : op' (edit.apply s) = (result', edit'.apply (edit.apply s)) :=
    hrun' _ (Store.Edit.table?_apply hedit.names hne s)
  have hafter' : op (edit'.apply s) = (result, edit.apply (edit'.apply s)) :=
    hrun _ (Store.Edit.table?_apply hedit'.names hne.symm s)
  have hnone : edit.AddsNone ∨ edit'.AddsNone := by
    rcases hadd with rfl | rfl
    · exact .inl hedit.addsNone
    · exact .inr hedit'.addsNone
  rw [hrun s rfl, hrun' s rfl, hafter, hafter']
  exact ⟨rfl, rfl, Store.Edit.apply_comm hedit.names hedit'.names hne hnone s⟩

/-- **Texts on different tables may run in either order.**  If not both create a table, each gives
    what it gives when it runs first, be it an outcome or a cause of failure, and the store is the
    same after both: the same tables in the same order, with the same definitions and rows.  Each
    text has its own clock, which shows it the same instants in both runs. -/
theorem run_comm (settings : Settings) (clock clock' : Nat → Timestamp) (store : Store)
    {text text' : List Char} {statement statement' : Statement} (h : parse text = .ok statement)
    (h' : parse text' = .ok statement') (hne : statement.table ≠ statement'.table)
    (hcreate : ¬ (statement.creates = true ∧ statement'.creates = true)) :
    let (result, after) := store.run settings clock text
    let (result', after') := store.run settings clock' text'
    (after.run settings clock' text').1 = result' ∧ (after'.run settings clock text).1 = result ∧
      (after.run settings clock' text').2 = (after'.run settings clock text).2 := by
  have hcolumns : statement.columns = [] ∨ statement'.columns = [] := by
    cases hs : statement.creates with
    | false => exact .inl (Statement.columns_eq_nil hs)
    | true =>
      exact .inr (Statement.columns_eq_nil (by simpa [hs] using hcreate))
  unfold Store.run
  simp only [Operation.executeText_of_ok h, Operation.executeText_of_ok h']
  exact (Operation.execute_acts settings clock statement _).comm
    (Operation.execute_acts settings clock' statement' _) hne hcolumns

/-- A row is numbered in one table, and the other one is dropped. -/
theorem run_comm_insert_drop :
    let run := Store.run ⟨.reject, .apply, false, 3⟩ fun _ => ⟨"", .date, 0⟩
    let store := (run (run .empty "CREATE TABLE a (id SERIAL PRIMARY KEY, x INT)".toList).2
      "CREATE TABLE b (x INT)".toList).2
    let inserted := run store "INSERT INTO a (x) VALUES (7), (8)".toList
    let dropped := run store "DROP TABLE b".toList
    inserted.1 = .ok (.affected 2 "2 rows inserted") ∧
      dropped.1 = .ok (.affected 0 "Table 'b' dropped") ∧
      (run inserted.2 "DROP TABLE b".toList).1 = dropped.1 ∧
      (run dropped.2 "INSERT INTO a (x) VALUES (7), (8)".toList).1 = inserted.1 ∧
      (run inserted.2 "DROP TABLE b".toList).2 =
        (run dropped.2 "INSERT INTO a (x) VALUES (7), (8)".toList).2 := by
  intro run store inserted dropped
  have hinsert : parse "INSERT INTO a (x) VALUES (7), (8)".toList =
      .ok (.insert "a" (some ["x"]) [[.integer 7], [.integer 8]]) := by decide +kernel
  have hdrop : parse "DROP TABLE b".toList = .ok (.dropTable "b" false) := by decide +kernel
  refine ⟨by decide +kernel, by decide +kernel, ?_⟩
  exact run_comm ⟨.reject, .apply, false, 3⟩ (fun _ => ⟨"", .date, 0⟩) (fun _ => ⟨"", .date, 0⟩)
    store hinsert hdrop (by decide) (by decide)

end PocketSql
