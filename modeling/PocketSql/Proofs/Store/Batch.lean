/-
  A batch of new rows and the same rows one after the other.

  * `Operation.insertEach` adds rows one by one, each as a batch of its own;
  * `Table.insertRows_cons`: the first row of a batch is added as if it were alone, and the others
    as a batch of the table with that row, although a batch carries the identities and the highest
    number along and a single row looks them up in the table;
  * `Operation.insertRows_eq`: by induction, a batch gives what its rows give one by one, only that
    a failure leaves no row behind;
  * `insertRows_eq_insertEach`: what this says of a batch in a reached store.
-/
import PocketSql.Proofs.Store.Change
import PocketSql.Proofs.Store.Success
import PocketSql.Proofs.Store.Validity

namespace PocketSql

/-- Adds rows to a table one after the other, the first at the instant `clock 0`, and gives them.
    The rows before one that is refused stay. -/
def Operation.insertEach (clock : Nat → Timestamp) (name : String) : List Row → Operation (List Row)
  | [] => return []
  | row :: rows => do
    let stored ← insertRow (clock 0) name row
    let others ← insertEach (fun i => clock (i + 1)) name rows
    return stored :: others

/-! ## Batches of a table -/

namespace Table

variable {t : Table} {clock : Nat → Timestamp} {row : Row} {rows : List Row}

/-- A table with one more stored row. -/
def extend (t : Table) (tuple : Tuple) : Table :=
  { t with rows := t.rows ++ [tuple] }

/-- The stored form of a new row. -/
def stored (t : Table) (instant : Timestamp) (row : Row) : Except SqlError Tuple :=
  (t.schema.prepareRow instant (.ofRows t.schema t.rows) row).map (·.1)

theorem insertRows_nil : t.insertRows clock [] = .ok ([], t) := by
  simp [insertRows, Schema.prepareRows, bind, Except.bind]

/-- What is known of the rows before and of the first one of a batch is what a table with this row
    tells. -/
theorem insertRows_cons :
    t.insertRows clock (row :: rows) =
      match t.stored (clock 0) row with
      | .error cause => .error cause
      | .ok tuple =>
        match (t.extend tuple).insertRows (fun i => clock (i + 1)) rows with
        | .error cause => .error cause
        | .ok (tuples, t') => .ok (tuple :: tuples, t') := by
  unfold insertRows stored
  rw [Schema.prepareRows]
  cases hrow : t.schema.prepareRow (clock 0) (.ofRows t.schema t.rows) row with
  | error cause => rfl
  | ok prepared =>
    obtain ⟨tuple, batch⟩ := prepared
    obtain ⟨-, -, rfl⟩ := Schema.prepareRow_spec hrow
    simp only [bind, Except.bind, Except.map, extend]
    cases t.schema.prepareRows (fun i => clock (i + 1)) (.ofRows t.schema (t.rows ++ [tuple]))
      rows with
    | error cause => rfl
    | ok tuples => simp

theorem insertRows_singleton :
    t.insertRows clock [row] =
      match t.stored (clock 0) row with
      | .error cause => .error cause
      | .ok tuple => .ok ([tuple], t.extend tuple) := by
  rw [insertRows_cons]
  split
  · rfl
  · simp only [insertRows_nil]

/-- The table after a batch is the one before with rows at its end. -/
theorem rows_of_insertRows {tuples : List Tuple} {t' : Table}
    (h : t.insertRows clock rows = .ok (tuples, t')) :
    t'.schema = t.schema ∧ t'.rows = t.rows ++ tuples := by
  obtain ⟨-, rfl⟩ := insertRows_eq_ok.1 h
  exact ⟨rfl, rfl⟩

end Table

/-! ## Batches of a store -/

namespace Operation

variable {s : Store} {name : String} {t : Table}

theorem insertRows_apply (ht : s.require name = .ok t) (clock : Nat → Timestamp)
    (rows : List Row) :
    insertRows clock name rows s =
      match t.insertRows clock rows with
      | .error cause => (.error cause, s)
      | .ok (tuples, t') => (.ok (tuples.map t.schema.rowOf), s.put t') := by
  unfold insertRows
  rw [read_bind_ok ht]
  cases h : t.insertRows clock rows with
  | error cause => simp [read, bind]
  | ok inserted => simp [read, bind, write, pure]

theorem insertRow_apply (ht : s.require name = .ok t) (instant : Timestamp) (row : Row) :
    insertRow instant name row s =
      match t.stored instant row with
      | .error cause => (.error cause, s)
      | .ok tuple => (.ok (t.schema.rowOf tuple), s.put (t.extend tuple)) := by
  have hbatch := insertRows_apply ht (fun _ => instant) [row]
  rw [Table.insertRows_singleton] at hbatch
  cases h : t.stored instant row with
  | error cause => simp only [h] at hbatch; simp [insertRow, bind, hbatch]
  | ok tuple => simp only [h] at hbatch; simp [insertRow, bind, hbatch, pure]

/-- The table shows the rows of a batch after those that it had. -/
theorem shows_of_insertRows {s' : Store} {clock : Nat → Timestamp} {rows inserted : List Row}
    (ht : s.require name = .ok t) (h : insertRows clock name rows s = (.ok inserted, s')) :
    ∃ t' new, s'.require name = .ok t' ∧ t'.schema = t.schema ∧ t'.rows = t.rows ++ new ∧
      t'.scan = t.scan ++ inserted := by
  obtain ⟨u, new, t', hu, hins, rfl, rfl⟩ := insertRows_eq_ok.1 h
  obtain rfl : t = u := Except.ok.inj (ht.symm.trans hu)
  obtain ⟨hschema, hrows⟩ := Table.rows_of_insertRows hins
  have hname : t'.name = name := (congrArg Schema.name hschema).trans (Store.require_eq_ok ht).2
  refine ⟨t', new, Store.require_put ht hname, hschema, hrows, ?_⟩
  rw [Table.scan, hschema, hrows, List.map_append, Table.scan]

/-- A batch gives what its rows give one by one; if one is refused, so is the batch, and no row
    stays. -/
theorem insertRows_eq (hs : s.names.Nodup) (ht : s.require name = .ok t)
    (clock : Nat → Timestamp) (rows : List Row) :
    insertRows clock name rows s =
      match insertEach clock name rows s with
      | (.error cause, _) => (.error cause, s)
      | (.ok inserted, after) => (.ok inserted, after) := by
  induction rows generalizing s t clock with
  | nil =>
    rw [insertRows_apply ht, Table.insertRows_nil]
    simp [insertEach, pure, Store.put_self hs ht]
  | cons row rows ih =>
    have hname := (Store.require_eq_ok ht).2
    rw [insertRows_apply ht, Table.insertRows_cons]
    cases hrow : t.stored (clock 0) row with
    | error cause => simp [insertEach, bind, insertRow_apply ht, hrow]
    | ok tuple =>
      -- the other rows are a batch of the store with this row
      have hs' : (s.put (t.extend tuple)).names.Nodup := by rwa [Store.names_put]
      have ht' : (s.put (t.extend tuple)).require name = .ok (t.extend tuple) :=
        Store.require_put ht hname
      have hothers := ih hs' ht' fun i => clock (i + 1)
      rw [insertRows_apply ht'] at hothers
      simp only [insertEach, bind, insertRow_apply ht, hrow]
      rcases heach : insertEach (fun i => clock (i + 1)) name rows (s.put (t.extend tuple)) with
        ⟨cause | others, after⟩ <;>
      rcases hbatch : (t.extend tuple).insertRows (fun i => clock (i + 1)) rows with
        cause' | ⟨tuples, t'⟩ <;>
      simp only [heach, hbatch, Prod.mk.injEq, reduceCtorEq, Except.error.injEq, Except.ok.injEq,
        false_and] at hothers
      · rw [hothers.1]
      · obtain ⟨rfl, rfl⟩ := hothers
        rw [Store.put_put (congrArg Schema.name (Table.rows_of_insertRows hbatch).1)]
        rfl

end Operation

/-- **A batch of rows is its rows one after the other.**  On a table of a reached store, adding rows
    at once gives the same rows as adding them one by one, or the failure of the first of these that
    fails.  If it succeeds, both leave the same store, in which the table shows the rows it had and
    after them the rows given; if it fails, the store is as it was. -/
theorem insertRows_eq_insertEach {s : Store} (hs : s.Reachable) {name : String} {t : Table}
    (ht : s.require name = .ok t) (clock : Nat → Timestamp) (rows : List Row) :
    let batch := Operation.insertRows clock name rows s
    let each := Operation.insertEach clock name rows s
    batch.1 = each.1 ∧
      (∀ cause, batch.1 = .error cause → batch.2 = s) ∧
      ∀ inserted, batch.1 = .ok inserted → batch.2 = each.2 ∧
        ∃ t' new, batch.2.require name = .ok t' ∧ t'.schema = t.schema ∧
          t'.rows = t.rows ++ new ∧ t'.scan = t.scan ++ inserted := by
  have heq := Operation.insertRows_eq hs.valid.names_nodup ht clock rows
  dsimp only
  rcases heach : Operation.insertEach clock name rows s with ⟨cause | inserted, after⟩ <;>
    simp only [heach] at heq
  · simp [heq]
  · rw [heq]
    refine ⟨rfl, fun _ h => (nomatch h), ?_⟩
    rintro _ ⟨⟩
    exact ⟨rfl, Operation.shows_of_insertRows ht heq⟩

/-- Rows of which the first is numbered, the second has a number of its own, and the third is
    numbered after it. -/
def numberedRows : List Row :=
  [.ofCells [("n", .integer 5)], .ofCells [("id", .decimal (.ofInt 7)), ("n", .integer 5)],
    .ofCells [("n", .null)]]

theorem insertRows_numberedRows :
    let s := ((StoreCall.create "t" [(Column.ofName "id" .serial).asPrimaryKey,
      Column.ofName "n" .integer]).apply (.ofSettings ⟨.reject, .apply, false, 3⟩
        fun _ => ⟨"", .date, 0⟩)).2
    let batch := Operation.insertRows (fun _ => ⟨"", .date, 0⟩) "t" numberedRows s
    batch.1 = .ok [⟨[("id", .integer 1), ("n", .integer 5)]⟩,
        ⟨[("id", .decimal (.ofInt 7)), ("n", .integer 5)]⟩,
        ⟨[("id", .integer 8), ("n", .null)]⟩] ∧
      batch.2 = (Operation.insertEach (fun _ => ⟨"", .date, 0⟩) "t" numberedRows s).2 := by
  intro s batch
  have ht : s.require "t" = .ok _ := rfl
  have h := insertRows_eq_insertEach (.call .new _) ht (fun _ => ⟨"", .date, 0⟩) numberedRows
  have hbatch : batch.1 = .ok [⟨[("id", .integer 1), ("n", .integer 5)]⟩,
      ⟨[("id", .decimal (.ofInt 7)), ("n", .integer 5)]⟩,
      ⟨[("id", .integer 8), ("n", .null)]⟩] := by
    decide +kernel
  exact ⟨hbatch, (h.2.2 _ hbatch).1⟩

end PocketSql
