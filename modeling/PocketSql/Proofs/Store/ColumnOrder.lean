/-
  The order of the column list of an INSERT.

  * `Row.SameCells`: rows that hold the same in every column, in whatever order their cells stand;
  * `Schema.prepareRows_congr`, `Operation.insertRows_congr`: new rows that do so are stored alike,
    or refused both;
  * `insert_column_order`: so the order of the column list does not matter.
-/
import Mathlib.Data.Fin.VecNotation
import Mathlib.Data.List.FinRange
import Mathlib.Data.List.Forall2
import PocketSql.Proofs.Store.Acceptance
import PocketSql.Proofs.Store.Retrieval
import PocketSql.Proofs.Table.Cells

namespace PocketSql

/-! ## Rows with the same cells -/

/-- Two rows hold the same in every column. -/
def Row.SameCells (a b : Row) : Prop :=
  ∀ name, a.get? name = b.get? name

theorem Row.SameCells.mem_names_iff {a b : Row} (h : a.SameCells b) (name : String) :
    name ∈ a.names ↔ name ∈ b.names := by
  rw [Row.mem_names_iff, Row.mem_names_iff, h name]

namespace Schema

variable {s : Schema} {instant : Timestamp} {highest : Int} {batch : Batch} {a b : Row}
  {rows rows' : List Row}

/-- The order of names decides which of several unknown ones is complained of, but not whether all
    are known. -/
theorem requireAll_congr {names names' : List String} (h : ∀ name, name ∈ names ↔ name ∈ names') :
    (s.requireAll names).toOption = (s.requireAll names').toOption := by
  refine Option.ext fun () => ?_
  simp only [toOption_eq_some, requireAll_eq_ok_iff, h]

theorem newCells_congr (h : a.SameCells b) (columns : List Column) :
    newCells instant highest a columns = newCells instant highest b columns := by
  induction columns with
  | nil => rfl
  | cons c columns ih => rw [newCells, newCells, h c.name, ih]

theorem complete_congr (h : a.SameCells b) :
    (s.complete instant highest a).toOption = (s.complete instant highest b).toOption := by
  rw [complete, complete, toOption_bind, toOption_bind, requireAll_congr h.mem_names_iff,
    newCells_congr h]

theorem prepareRow_congr (h : a.SameCells b) :
    (s.prepareRow instant batch a).toOption = (s.prepareRow instant batch b).toOption := by
  rw [prepareRow, prepareRow, toOption_bind, toOption_bind, complete_congr h]

/-- Batches of rows with the same cells are stored alike, or refused both. -/
theorem prepareRows_congr (h : List.Forall₂ Row.SameCells rows rows') (clock : Nat → Timestamp)
    (batch : Batch) :
    (s.prepareRows clock batch rows).toOption = (s.prepareRows clock batch rows').toOption := by
  induction h generalizing clock batch with
  | nil => rfl
  | cons hrow _ ih => simp only [prepareRows, toOption_bind, prepareRow_congr hrow, ih]

end Schema

theorem Table.insertRows_congr {rows rows' : List Row} (h : List.Forall₂ Row.SameCells rows rows')
    (clock : Nat → Timestamp) (t : Table) :
    (t.insertRows clock rows).toOption = (t.insertRows clock rows').toOption := by
  rw [insertRows, insertRows, toOption_bind, toOption_bind, Schema.prepareRows_congr h]

/-! ## Operations -/

namespace Operation

variable {s s' : Store} {name : String} {clock : Nat → Timestamp}

theorem insertRows_congr {rows rows' inserted : List Row}
    (h : List.Forall₂ Row.SameCells rows rows') :
    insertRows clock name rows s = (.ok inserted, s') ↔
      insertRows clock name rows' s = (.ok inserted, s') := by
  simp only [insertRows_eq_ok, ← toOption_eq_some, Table.insertRows_congr h]

end Operation

/-! ## Column lists -/

theorem zip_ofFn {α β : Type} {n : Nat} (f : Fin n → α) (g : Fin n → β) :
    (List.ofFn f).zip (List.ofFn g) = List.ofFn fun i => (f i, g i) := by
  refine List.ext_getElem (by simp) fun i hi hi' => ?_
  simp

namespace Operation

variable {n : Nat} {names : Fin n → String}

/-- A permutation of the column list and of the values with it leaves every cell as it is. -/
theorem givenRow_sameCells (t : Table) (hnames : Function.Injective names)
    (σ : Equiv.Perm (Fin n)) (row : Fin n → Value) :
    (givenRow t (some (List.ofFn names)) (List.ofFn row)).SameCells
      (givenRow t (some (List.ofFn (names ∘ σ))) (List.ofFn (row ∘ σ))) := by
  intro name
  simp only [givenRow, Option.getD_some, zip_ofFn]
  refine Row.get?_ofCells_perm ?_ (σ.ofFn_comp_perm fun i => (names i, row i)).symm name
  rw [List.map_ofFn]
  exact List.nodup_ofFn.2 hnames

/-- With the permuted columns an INSERT succeeds for the same count, and then leaves the same
    store. -/
theorem insert_congr {s s' : Store} {clock : Nat → Timestamp} {table : String}
    (hnames : Function.Injective names) (σ : Equiv.Perm (Fin n)) (rows : List (Fin n → Value))
    {count : Nat} :
    insert clock table (some (List.ofFn names)) (rows.map List.ofFn) s = (.ok count, s') ↔
      insert clock table (some (List.ofFn (names ∘ σ)))
        (rows.map fun row => List.ofFn (row ∘ σ)) s = (.ok count, s') := by
  have hrows (t : Table) : List.Forall₂ Row.SameCells
      ((rows.map List.ofFn).map (givenRow t (some (List.ofFn names))))
      ((rows.map fun row => List.ofFn (row ∘ σ)).map
        (givenRow t (some (List.ofFn (names ∘ σ))))) := by
    simp only [List.forall₂_map_left_iff, List.forall₂_map_right_iff, List.forall₂_same]
    exact fun row _ => givenRow_sameCells t hnames σ row
  simp only [insert_eq_ok, List.forall_mem_map, List.length_ofFn, Option.getD_some,
    insertRows_congr (hrows _)]

end Operation

/-- **INSERT does not depend on the order of the column list.**  If distinct names and the values of
    every tuple are brought into another order in the same way, the INSERT succeeds if and only if it
    did so before, with the same count, and leaves the same store, at the same instants.  Without a
    column list an INSERT is the one that names all columns of the table in their order. -/
theorem insert_column_order {n : Nat} (settings : Settings) (clock : Nat → Timestamp) (s : Store)
    (table : String) {names : Fin n → String} (hnames : Function.Injective names)
    (σ : Equiv.Perm (Fin n)) (rows : List (Fin n → Value)) :
    let insert columns rows := Operation.execute settings clock (.insert table columns rows) s
    let given := insert (some (List.ofFn names)) (rows.map List.ofFn)
    let permuted := insert (some (List.ofFn (names ∘ σ))) (rows.map fun row => List.ofFn (row ∘ σ))
    (∀ outcome, given.1 = .ok outcome ↔ permuted.1 = .ok outcome) ∧ given.2 = permuted.2 ∧
      ∀ t, s.require table = .ok t →
        ∀ rows, insert none rows = insert (some t.schema.names) rows := by
  intro insert given permuted
  have hsame (outcome : Outcome) (s' : Store) :
      given = (.ok outcome, s') ↔ permuted = (.ok outcome, s') := by
    simp only [given, permuted, insert, Operation.execute, Operation.bind_eq_ok,
      Operation.insert_congr hnames σ]
  have hkeeps (columns : Option (List String)) (rows : List (List Value)) :
      (Operation.execute settings clock (.insert table columns rows)).Keeps table s :=
    Operation.execute_keeps settings clock (.insert table columns rows) s
  -- if one of the two fails, so does the other, and both leave the store as it was
  obtain ⟨hresult, hstore⟩ := (hkeeps _ _).agree (hkeeps _ _) hsame
  refine ⟨hresult, hstore, fun t ht rows => ?_⟩
  have hinsert : Operation.insert clock table none rows s =
      Operation.insert clock table (some t.schema.names) rows s := by
    rw [Operation.insert, Operation.insert, Operation.read_bind_ok ht, Operation.read_bind_ok ht]
    rfl
  simp only [insert, Operation.execute, bind, hinsert]

/-- Two rows given with their numbers, and the same with the columns the other way round. -/
theorem insert_column_order_swapped :
    let s := runCalls ownKeyCalls (.ofSettings ⟨.reject, .apply, false, 3⟩
      fun _ => ⟨"", .date, 0⟩)
    let insert := fun columns rows => Operation.execute ⟨.reject, .apply, false, 3⟩
      (fun _ => ⟨"", .date, 0⟩) (.insert "t" (some columns) rows) s
    let given := insert ["id", "n"] [[.integer 4, .integer 7], [.integer 9, .integer 8]]
    let permuted := insert ["n", "id"] [[.integer 7, .integer 4], [.integer 8, .integer 9]]
    given.1 = .ok (.affected 2 "2 rows inserted") ∧
      permuted.1 = .ok (.affected 2 "2 rows inserted") ∧ given.2 = permuted.2 := by
  intro s insert given permuted
  have hgiven : given.1 = .ok (.affected 2 "2 rows inserted") := by decide +kernel
  have hnames : (List.ofFn !["id", "n"]).Nodup := by decide
  obtain ⟨hresult, hstore, -⟩ := insert_column_order ⟨.reject, .apply, false, 3⟩
    (fun _ => ⟨"", .date, 0⟩) s "t" (List.nodup_ofFn.1 hnames) (Equiv.swap 0 1)
    [![.integer 4, .integer 7], ![.integer 9, .integer 8]]
  exact ⟨hgiven, (hresult _).1 hgiven, hstore⟩

end PocketSql
