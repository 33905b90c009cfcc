/-
  In every run of store calls, each table stays valid.

  * `Store.Changes.valid`: what an operation can do to a store keeps it valid;
  * `StoreCall` is a call of the store with its arguments, `runCalls` makes calls one after the
    other and goes on after those that fail;
  * `StoreCall.apply_valid`, `runCalls_valid`: one call, and by induction every run, keeps a store
    valid;
  * `tables_of_runCalls`: what this says of the tables of a reached store;
  * `Store.Reachable` are the stores that calls and statements reach; they are valid.
-/
import Mathlib.Data.List.Nodup
import PocketSql.Proofs.Store.Change
import PocketSql.Sample

namespace PocketSql

/-! ## One change -/

theorem Table.Becomes.valid {t t' : Table} (h : t.Becomes t') (hv : t.Valid) : t'.Valid := by
  cases h with
  | insert h => exact insertRows_valid h hv
  | update h => exact update_valid h hv
  | delete => exact delete_valid _ hv

namespace Store

variable {s s' : Store} {name : String}

theorem has_eq_false_iff : s.has name = false ↔ name ∉ s.names := by
  simp [has, names]

theorem names_put (t : Table) (s : Store) : (s.put t).names = s.names := by
  simp only [names, put, List.map_map]
  refine List.map_congr_left fun old _ => ?_
  simp only [Function.comp_apply]
  split
  · next h => exact (by simpa using h : old.name = t.name).symm
  · rfl

theorem mem_put {t u : Table} (h : u ∈ (s.put t).tables) : u = t ∨ u ∈ s.tables := by
  obtain ⟨old, hold, rfl⟩ := List.mem_map.1 h
  split
  · exact .inl rfl
  · exact .inr hold

theorem valid_add {schema : Schema} (hv : s.Valid) (hfree : s.has schema.name = false) :
    (s.add (.ofSchema schema)).Valid := by
  refine ⟨?_, fun t ht => ?_⟩
  · have hnames : (s.add (.ofSchema schema)).names = s.names ++ [schema.name] := by
      simp [add, names, Table.ofSchema, Table.name]
    rw [hnames, ← List.concat_eq_append]
    exact hv.names_nodup.concat (has_eq_false_iff.1 hfree)
  · rcases List.mem_append.1 ht with hold | hnew
    · exact hv.tables t hold
    · rw [List.mem_singleton.1 hnew]
      exact Table.valid_ofSchema schema

theorem valid_remove (hv : s.Valid) (name : String) : (s.remove name).Valid := by
  refine ⟨?_, fun t ht => hv.tables t (List.mem_filter.1 ht).1⟩
  exact hv.names_nodup.sublist (List.filter_sublist.map _)

theorem valid_put {t : Table} (hv : s.Valid) (ht : t.Valid) : (s.put t).Valid := by
  refine ⟨by rw [names_put]; exact hv.names_nodup, fun u hu => ?_⟩
  rcases mem_put hu with rfl | hold
  · exact ht
  · exact hv.tables u hold

theorem Changes.valid (h : s.Changes name s') (hv : s.Valid) : s'.Valid := by
  cases h with
  | none => exact hv
  | add hfree => exact valid_add hv hfree
  | remove => exact valid_remove hv name
  | put hreq hbecomes =>
    have ht := hv.tables _ (require_eq_ok hreq).1
    exact valid_put hv (hbecomes.valid ht)

end Store

/-! ## Runs -/

/-- A call of the store with its arguments. -/
inductive StoreCall
  | create (name : String) (columns : List Column)
  | drop (name : String)
  | insert (clock : Nat → Timestamp) (name : String) (rows : List Row)
  | update (name : String) (p : Row → Bool) (assignments : List (String × Value))
  | delete (name : String) (p : Row → Bool)

namespace StoreCall

/-- The table that a call names. -/
def table : StoreCall → String
  | create name _ | drop name | insert _ name _ | update name _ _ | delete name _ => name

/-- What a call runs, without what it gives. -/
def apply : StoreCall → Operation Unit
  | create name columns => Operation.create name columns
  | drop name => Operation.dropTable name
  | insert clock name rows => do
    let _ ← Operation.insertRows clock name rows
    return ()
  | update name p assignments => do
    let _ ← Operation.updateRows name p assignments
    return ()
  | delete name p => do
    let _ ← Operation.deleteRows name p
    return ()

theorem apply_keeps (c : StoreCall) (s : Store) : c.apply.Keeps c.table s := by
  cases c with
  | create name columns => exact Operation.create_keeps name columns s
  | drop name => exact Operation.dropTable_keeps name s
  | insert clock name rows =>
    exact Operation.keeps_map (Operation.insertRows_keeps clock name rows s) _
  | update name p assignments =>
    exact Operation.keeps_map (Operation.updateRows_keeps name p assignments s) _
  | delete name p => exact Operation.keeps_map (Operation.deleteRows_keeps name p s) _

theorem apply_valid (c : StoreCall) {s : Store} (hv : s.Valid) : (c.apply s).2.Valid :=
  (c.apply_keeps s).changes.valid hv

end StoreCall

/-- The store after calls one after the other; a call that fails does not end the run. -/
def runCalls (calls : List StoreCall) (s : Store) : Store :=
  calls.foldl (fun s c => (c.apply s).2) s

theorem runCalls_valid (calls : List StoreCall) {s : Store} (hv : s.Valid) :
    (runCalls calls s).Valid := by
  induction calls generalizing s with
  | nil => exact hv
  | cons c calls ih => exact ih (c.apply_valid hv)

/-! ## New stores -/

theorem Schema.fits_of_present {s : Schema} {tuple : Tuple} (hlen : tuple.length = s.columns.length)
    (h : Value.null ∉ tuple) : s.Fits tuple := by
  refine ⟨hlen, fun i c hc hnull => absurd ?_ h⟩
  obtain ⟨hi, -⟩ := List.getElem?_eq_some_iff.1 hc
  rw [← hlen] at hi
  rw [← hnull, Tuple.cell_of_lt hi]
  exact List.getElem_mem hi

theorem usersSchema_unique {i : Nat} {c : Column} (hc : usersSchema.columns[i]? = some c)
    (hu : c.isUnique = true) : i = 0 ∨ i = 2 := by
  rcases i with _ | _ | _ | _ | _ | i <;> simp [usersSchema] at hc <;> subst hc <;>
    simp [Column.isUnique, Column.ofName, Column.asNotNull, Column.withDefault] at hu ⊢

theorem postsSchema_unique {i : Nat} {c : Column} (hc : postsSchema.columns[i]? = some c)
    (hu : c.isUnique = true) : i = 0 := by
  rcases i with _ | _ | _ | _ | _ | i <;> simp [postsSchema] at hc <;> subst hc <;>
    simp [Column.isUnique, Column.ofName, Column.asNotNull, Column.withDefault,
      Column.withReference] at hu ⊢

theorem userTuple_apart {i j : Timestamp} {id id' age age' : Int64}
    {name name' email email' : String} (hid : id.toInt ≠ id'.toInt) (hemail : email ≠ email') :
    usersSchema.Apart (userTuple i id name email age) (userTuple j id' name' email' age') := by
  intro k c hc hu key ha hb
  rcases usersSchema_unique hc hu with rfl | rfl <;>
    simp only [userTuple, Tuple.cell, List.getD_cons_zero, List.getD_cons_succ, Value.key?,
      Option.some.injEq] at ha hb <;> subst ha
  · exact hid (UniqueKey.integer.inj hb).symm
  · exact hemail (UniqueKey.text.inj hb).symm

theorem postTuple_apart {i j : Timestamp} {id id' user user' : Int64}
    {title title' content content' : String} (hid : id.toInt ≠ id'.toInt) :
    postsSchema.Apart (postTuple i id user title content)
      (postTuple j id' user' title' content') := by
  intro k c hc hu key ha hb
  obtain rfl := postsSchema_unique hc hu
  simp only [postTuple, Tuple.cell, List.getD_cons_zero, Value.key?, Option.some.injEq] at ha hb
  subst ha
  exact hid (UniqueKey.integer.inj hb).symm

theorem usersTable_valid (clock : Nat → Timestamp) : (usersTable clock).Valid where
  fits tuple h := by
    simp only [usersTable, List.mem_cons, List.not_mem_nil, or_false] at h
    rcases h with rfl | rfl | rfl <;>
      exact Schema.fits_of_present rfl (by simp [userTuple])
  apart := by
    simp only [usersTable, List.pairwise_cons, List.mem_cons, List.not_mem_nil, or_false,
      forall_eq_or_imp, forall_eq]
    refine ⟨⟨?_, ?_⟩, ?_, by simp⟩ <;> exact userTuple_apart (by decide) (by decide)

theorem postsTable_valid (clock : Nat → Timestamp) : (postsTable clock).Valid where
  fits tuple h := by
    simp only [postsTable, List.mem_cons, List.not_mem_nil, or_false] at h
    rcases h with rfl | rfl | rfl <;>
      exact Schema.fits_of_present rfl (by simp [postTuple])
  apart := by
    simp only [postsTable, List.pairwise_cons, List.mem_cons, List.not_mem_nil, or_false,
      forall_eq_or_imp, forall_eq]
    refine ⟨⟨?_, ?_⟩, ?_, by simp⟩ <;> exact postTuple_apart (by decide)

theorem sampleStore_valid (clock : Nat → Timestamp) : (sampleStore clock).Valid where
  names_nodup := by
    simp [sampleStore, Store.names, usersTable, postsTable, Table.name, usersSchema, postsSchema]
  tables t h := by
    simp only [sampleStore, List.mem_cons, List.not_mem_nil, or_false] at h
    rcases h with rfl | rfl
    · exact usersTable_valid clock
    · exact postsTable_valid clock

theorem ofSettings_valid (settings : Settings) (clock : Nat → Timestamp) :
    (Store.ofSettings settings clock).Valid := by
  unfold Store.ofSettings
  split
  · exact sampleStore_valid clock
  · exact Store.valid_empty

/-! ## What holds of every reached table -/

/-- The identities that the rows of a table have in a column, row by row. -/
def Table.keys (t : Table) (i : Nat) : List UniqueKey :=
  t.rows.filterMap fun tuple => (tuple.cell i).key?

theorem Table.Valid.keys_nodup {t : Table} (hv : t.Valid) {i : Nat} {c : Column}
    (hc : t.schema.columns[i]? = some c) (hu : c.isUnique = true) : (t.keys i).Nodup := by
  unfold keys
  rw [List.Nodup, List.pairwise_filterMap]
  refine hv.apart.imp fun {a b} hab key ha key' hb heq => ?_
  exact hab i c hc hu key ha (heq ▸ hb)

theorem Schema.Fits.present {s : Schema} {tuple : Tuple} (h : s.Fits tuple) {i : Nat} {c : Column}
    (hc : s.columns[i]? = some c) (hn : c.nullable = false) :
    ∃ v, tuple[i]? = some v ∧ v ≠ .null := by
  obtain ⟨hi, -⟩ := List.getElem?_eq_some_iff.1 hc
  rw [← h.length_eq] at hi
  refine ⟨tuple[i], List.getElem?_eq_getElem hi, fun hnull => ?_⟩
  rw [h.nullable i c hc (by rw [Tuple.cell_of_lt hi, hnull])] at hn
  cases hn

/-- **Every reached table keeps its constraints.**  After any calls on a new store, whether they
    succeed or fail, each stored row has one value for each column and none absent where that is
    not allowed, no identity repeats in a unique or primary key column, at most one column is the
    primary key, and column names differ. -/
theorem tables_of_runCalls (settings : Settings) (clock : Nat → Timestamp)
    (calls : List StoreCall) :
    ∀ t ∈ (runCalls calls (.ofSettings settings clock)).tables,
      (∀ tuple ∈ t.rows, tuple.length = t.schema.columns.length) ∧
      (∀ tuple ∈ t.rows, ∀ (i : Nat) (c : Column), t.schema.columns[i]? = some c →
        c.nullable = false → ∃ v, tuple[i]? = some v ∧ v ≠ .null) ∧
      (∀ (i : Nat) (c : Column), t.schema.columns[i]? = some c →
        (c.unique = true ∨ c.primaryKey = true) → (t.keys i).Nodup) ∧
      t.schema.columns.countP (·.primaryKey) ≤ 1 ∧ (t.schema.columns.map (·.name)).Nodup := by
  intro t ht
  have hv : t.Valid := (runCalls_valid calls (ofSettings_valid settings clock)).tables t ht
  refine ⟨fun tuple h => (hv.fits tuple h).length_eq, fun tuple h i c hc hn => ?_,
    fun i c hc hu => hv.keys_nodup hc (by simpa [Column.isUnique] using hu),
    t.schema.one_primaryKey, t.schema.names_nodup⟩
  exact (hv.fits tuple h).present hc hn

/-- A table of keys, a row, and two more rows of which the second repeats the key of the first. -/
def repeatedKeyCalls (clock : Nat → Timestamp) : List StoreCall :=
  [.create "t" [(Column.ofName "id" .integer).asPrimaryKey],
    .insert clock "t" [.ofCells [("id", .integer 1)]],
    .insert clock "t" [.ofCells [("id", .integer 2)], .ofCells [("id", .integer 1)]]]

theorem keys_of_repeatedKeyCalls :
    ∃ t ∈ (runCalls (repeatedKeyCalls fun _ => ⟨"", .date, 0⟩)
        (.ofSettings ⟨.reject, .apply, false, 3⟩ fun _ => ⟨"", .date, 0⟩)).tables,
      t.rows = [[.integer 1]] ∧ (t.keys 0).Nodup := by
  have hmem := List.mem_singleton.2 (Eq.refl (Table.mk ⟨"t",
    [(Column.ofName "id" .integer).asPrimaryKey], by simp, by decide, by decide⟩ [[.integer 1]]))
  obtain ⟨-, -, hkeys, -⟩ := tables_of_runCalls ⟨.reject, .apply, false, 3⟩
    (fun _ => ⟨"", .date, 0⟩) (repeatedKeyCalls fun _ => ⟨"", .date, 0⟩) _ hmem
  exact ⟨_, hmem, rfl, hkeys 0 _ rfl (.inl rfl)⟩

/-! ## Calls and statements -/

/-- A store that calls and the statements of texts reach from a new one. -/
inductive Store.Reachable : Store → Prop
  | new {settings clock} : Reachable (.ofSettings settings clock)
  | call {s} (h : Reachable s) (c : StoreCall) : Reachable (c.apply s).2
  | run {s} (h : Reachable s) (settings clock text) : Reachable (s.run settings clock text).2

theorem run_valid (settings : Settings) (clock : Nat → Timestamp) (text : List Char) {s : Store}
    (hv : s.Valid) : (s.run settings clock text).2.Valid := by
  unfold Store.run
  cases hparse : parse text with
  | error cause => rwa [Operation.executeText_of_error hparse]
  | ok statement =>
    rw [Operation.executeText_of_ok hparse]
    exact (Operation.execute_keeps settings clock statement s).changes.valid hv

theorem Store.Reachable.runCalls {s : Store} (h : s.Reachable) (calls : List StoreCall) :
    (runCalls calls s).Reachable := by
  induction calls generalizing s with
  | nil => exact h
  | cons c calls ih => exact ih (h.call c)

theorem Store.Reachable.valid {s : Store} (h : s.Reachable) : s.Valid := by
  induction h with
  | new => exact ofSettings_valid _ _
  | call _ c ih => exact c.apply_valid ih
  | run _ settings clock text ih => exact run_valid settings clock text ih

end PocketSql
