/-
  A store as a list of names and a map of tables.

  * `Catalog` keeps the order of the tables apart from the tables themselves, and a call changes the
    two one after the other (`Catalog.apply`);
  * `Catalog.ofStore` is what a catalog holds of a store;
  * `StoreCall.apply_create`, `apply_drop`, `apply_modify`: what a call does to a store;
  * `Catalog.apply_ofStore`: a call on it gives what it gives on the store, and leaves what the
    catalog holds of the store after the call; `Catalog.run_ofStore`: so does every run;
  * `Catalog.overviews_ofStore`: the overviews of the tables, each looked up by its name and left
    out if there is none, are those of all tables.
-/
import PocketSql.Engine
import PocketSql.Proofs.Store.Edit
import PocketSql.Proofs.Store.Frame
import PocketSql.Proofs.Store.Change

namespace PocketSql

/-! ## Looking up after a change -/

namespace Store

variable {s : Store} {t u : Table}

theorem table?_add_self (h : s.table? t.name = none) : (s.add t).table? t.name = some t := by
  rw [table?, List.find?_eq_none] at h
  simp [table?, add, List.find?_append, List.find?_eq_none.2 h]

theorem table?_remove_self (name : String) (s : Store) : (s.remove name).table? name = none := by
  simp [table?, remove, List.find?_filter]

theorem table?_put_self (h : s.table? t.name = some u) : (s.put t).table? t.name = some t :=
  require_eq_ok_iff.1 (require_put (require_eq_ok_iff.2 h) rfl)

theorem table?_of_mem (h : s.names.Nodup) (ht : t ∈ s.tables) : s.table? t.name = some t := by
  cases hfound : s.table? t.name with
  | none => exact absurd (List.find?_eq_none.1 hfound t ht) (by simp)
  | some u =>
    have hu := List.mem_of_find?_eq_some hfound
    exact congrArg some (List.inj_on_of_nodup_map h hu ht (name_of_table? hfound))

/-- Changes the table of a name, and leaves the store as it is if there is none or the change is
    refused. -/
def modify (name : String) (change : Table → Except SqlError Table) (s : Store) :
    Except SqlError Unit × Store :=
  match s.table? name with
  | none => (.error (.unknownTable name), s)
  | some t =>
    match change t with
    | .error cause => (.error cause, s)
    | .ok t' => (.ok (), s.put t')

end Store

/-! ## Calls on a store -/

theorem map_snd_eq_ok {α β ε : Type} {x : Except ε (α × β)} {b : β} :
    x.map (·.2) = .ok b ↔ ∃ a, x = .ok (a, b) := by
  cases x with
  | error cause => simp [Except.map]
  | ok pair => simp [Except.map, Prod.ext_iff]

namespace StoreCall

theorem apply_create (name : String) (columns : List Column) (s : Store) :
    (create name columns).apply s = (match Schema.ofColumns name columns with
      | .error cause => (.error cause, s)
      | .ok schema =>
        if s.has schema.name then (.error (.tableExists schema.name), s)
        else (.ok (), s.add (.ofSchema schema)) : Except SqlError Unit × Store) := by
  cases hschema : Schema.ofColumns name columns with
  | error cause => simp [apply, Operation.create, bind, Operation.read, hschema]
  | ok schema =>
    cases h : s.has schema.name <;>
      simp [apply, Operation.create, Operation.createTable, bind, Operation.read, Operation.write,
        Operation.fail, hschema, h]

theorem apply_drop (name : String) (s : Store) :
    (drop name).apply s = (if s.has name then (.ok (), s.remove name)
      else (.error (.unknownTable name), s) : Except SqlError Unit × Store) := by
  cases h : s.has name <;>
    simp [apply, Operation.dropTable, bind, Operation.read, Operation.write, Operation.fail, h]

/-- The calls that change rows look a table up, change it and put it back. -/
theorem apply_modify {α β : Type} (name : String) (change : Table → Except SqlError (α × Table))
    (result : Table → α → β) (s : Store) :
    ((do
      let t ← Operation.read (·.require name)
      let (a, changed) ← Operation.read fun _ => change t
      Operation.write (·.put changed)
      return result t a : Operation β) >>= fun _ => pure ()) s =
        s.modify name fun t => (change t).map (·.2) := by
  unfold Store.modify
  cases ht : s.table? name with
  | none => simp [bind, Operation.read, Store.require, ht]
  | some t =>
    cases h : change t <;>
      simp [bind, pure, Operation.read, Operation.write, Store.require, ht, h, Except.map]

theorem apply_insert (clock : Nat → Timestamp) (name : String) (rows : List Row) (s : Store) :
    (insert clock name rows).apply s =
      s.modify name fun t => (t.insertRows clock rows).map (·.2) :=
  apply_modify name (Table.insertRows clock rows) (fun t tuples => tuples.map t.schema.rowOf) s

theorem apply_update (name : String) (p : Row → Bool) (assignments : List (String × Value))
    (s : Store) :
    (update name p assignments).apply s =
      s.modify name fun t => (t.update p assignments).map (·.2) :=
  apply_modify name (Table.update p assignments) (fun _ n => n) s

theorem apply_delete (name : String) (p : Row → Bool) (s : Store) :
    (delete name p).apply s = s.modify name fun t => .ok (t.delete p).2 :=
  apply_modify name (fun t => .ok (t.delete p)) (fun _ n => n) s

end StoreCall

/-! ## Catalogs -/

/-- The names of tables in the order of their creation, and a table for each name. -/
structure Catalog where
  order : List String
  table? : String → Option Table

namespace Catalog

/-- The catalog without tables. -/
def empty : Catalog := ⟨[], fun _ => none⟩

/-- Changes the table of a name. -/
def modify (name : String) (change : Table → Except SqlError Table) (c : Catalog) :
    Except SqlError Unit × Catalog :=
  match c.table? name with
  | none => (.error (.unknownTable name), c)
  | some t =>
    match change t with
    | .error cause => (.error cause, c)
    | .ok t' => (.ok (), { c with table? := Function.update c.table? name (some t') })

/-- A call, and the catalog as it is left. -/
def apply (c : Catalog) : StoreCall → Except SqlError Unit × Catalog
  | .create name columns =>
    match Schema.ofColumns name columns with
    | .error cause => (.error cause, c)
    | .ok schema =>
      if (c.table? schema.name).isSome then (.error (.tableExists schema.name), c)
      else (.ok (), ⟨c.order ++ [schema.name],
        Function.update c.table? schema.name (some (.ofSchema schema))⟩)
  | .drop name =>
    if (c.table? name).isSome then
      (.ok (), ⟨c.order.filter (· != name), Function.update c.table? name none⟩)
    else (.error (.unknownTable name), c)
  | .insert clock name rows => c.modify name fun t => (t.insertRows clock rows).map (·.2)
  | .update name p assignments => c.modify name fun t => (t.update p assignments).map (·.2)
  | .delete name p => c.modify name fun t => .ok (t.delete p).2

/-- The catalog after calls one after the other; a call that fails does not end the run. -/
def run (calls : List StoreCall) (c : Catalog) : Catalog :=
  calls.foldl (fun c call => (c.apply call).2) c

/-- The names and the tables of a store. -/
def ofStore (s : Store) : Catalog :=
  ⟨s.names, s.table?⟩

variable {s : Store} {name : String} {t : Table}

theorem ofStore_add (h : s.table? t.name = none) :
    ofStore (s.add t) = ⟨s.names ++ [t.name], Function.update s.table? t.name (some t)⟩ := by
  rw [ofStore, Store.names_add, mk.injEq]
  refine ⟨rfl, funext fun other => ?_⟩
  by_cases hother : other = t.name
  · rw [hother, Store.table?_add_self h, Function.update_self]
  · rw [Store.table?_add (Ne.symm hother), Function.update_of_ne hother]

theorem ofStore_remove (name : String) (s : Store) :
    ofStore (s.remove name) =
      ⟨s.names.filter (· != name), Function.update s.table? name none⟩ := by
  rw [ofStore, Store.names_remove, mk.injEq]
  refine ⟨rfl, funext fun other => ?_⟩
  by_cases hother : other = name
  · rw [hother, Store.table?_remove_self, Function.update_self]
  · rw [Store.table?_remove (Ne.symm hother), Function.update_of_ne hother]

theorem ofStore_put {u : Table} (h : s.table? t.name = some u) :
    ofStore (s.put t) = ⟨s.names, Function.update s.table? t.name (some t)⟩ := by
  rw [ofStore, Store.names_put, mk.injEq]
  refine ⟨rfl, funext fun other => ?_⟩
  by_cases hother : other = t.name
  · rw [hother, Store.table?_put_self h, Function.update_self]
  · rw [Store.table?_put (Ne.symm hother), Function.update_of_ne hother]

/-- A change that keeps the name of a table. -/
theorem modify_ofStore {change : Table → Except SqlError Table}
    (hchange : ∀ t t', change t = .ok t' → t'.name = t.name) (name : String) (s : Store) :
    (ofStore s).modify name change =
      ((s.modify name change).1, ofStore (s.modify name change).2) := by
  unfold modify Store.modify
  show (match s.table? name with | none => _ | some t => _) = _
  cases ht : s.table? name with
  | none => rfl
  | some t =>
    dsimp only
    cases h : change t with
    | error cause => rfl
    | ok t' =>
      have hname : t'.name = name := (hchange t t' h).trans (Store.name_of_table? ht)
      subst hname
      dsimp only
      rw [ofStore_put ht]
      rfl

theorem isSome_ofStore (s : Store) (name : String) :
    ((ofStore s).table? name).isSome = s.has name :=
  (Store.has_eq_isSome s name).symm

/-- **The order and the map stay those of the store.** -/
theorem apply_ofStore (call : StoreCall) (s : Store) :
    (ofStore s).apply call = ((call.apply s).1, ofStore (call.apply s).2) := by
  cases call with
  | create name columns =>
    rw [StoreCall.apply_create, apply]
    cases Schema.ofColumns name columns with
    | error cause => rfl
    | ok schema =>
      dsimp only
      rw [isSome_ofStore]
      cases h : s.has schema.name with
      | true => rfl
      | false =>
        have hnone : s.table? schema.name = none := by simpa [Store.has_eq_isSome] using h
        exact congrArg (Prod.mk _) (ofStore_add (t := .ofSchema schema) hnone).symm
  | drop name =>
    rw [StoreCall.apply_drop, apply, isSome_ofStore]
    cases s.has name with
    | false => rfl
    | true => exact congrArg (Prod.mk _) (ofStore_remove name s).symm
  | insert clock name rows =>
    rw [StoreCall.apply_insert]
    refine modify_ofStore ?_ name s
    intro t t' h
    obtain ⟨_, hinsert⟩ := map_snd_eq_ok.1 h
    exact (Table.Becomes.insert hinsert).name_eq
  | update name p assignments =>
    rw [StoreCall.apply_update]
    refine modify_ofStore ?_ name s
    intro t t' h
    obtain ⟨_, hupdate⟩ := map_snd_eq_ok.1 h
    exact (Table.Becomes.update hupdate).name_eq
  | delete name p =>
    rw [StoreCall.apply_delete]
    have hname : ∀ t t' : Table, (.ok (t.delete p).2 : Except SqlError Table) = .ok t' →
        t'.name = t.name := by
      rintro t _ ⟨⟩
      rfl
    exact modify_ofStore hname name s

theorem run_ofStore (calls : List StoreCall) (s : Store) :
    run calls (ofStore s) = ofStore (runCalls calls s) := by
  induction calls generalizing s with
  | nil => rfl
  | cons call calls ih =>
    rw [run, List.foldl_cons, apply_ofStore]
    exact ih (call.apply s).2

/-- What is shown of the tables, which are looked up by their names one by one; a name without a
    table is left out. -/
def overviews {α : Type} (shown : Table → α) (c : Catalog) : List (String × α) :=
  c.order.filterMap fun name => (c.table? name).map fun t => (name, shown t)

theorem overviews_ofStore {α : Type} (shown : Table → α) (h : s.names.Nodup) :
    (ofStore s).overviews shown = s.tables.map fun t => (t.name, shown t) := by
  have hfound : ∀ t ∈ s.tables,
      ((s.table? t.name).map fun u => (t.name, shown u)) = some (t.name, shown t) := by
    intro t ht
    rw [Store.table?_of_mem h ht, Option.map_some]
  calc (ofStore s).overviews shown
      = s.tables.filterMap fun t => (s.table? t.name).map fun u => (t.name, shown u) :=
        List.filterMap_map
    _ = s.tables.filterMap fun t => some (t.name, shown t) := List.filterMap_congr hfound
    _ = s.tables.map fun t => (t.name, shown t) := by rw [← List.filterMap_eq_map]; rfl

end Catalog

end PocketSql
