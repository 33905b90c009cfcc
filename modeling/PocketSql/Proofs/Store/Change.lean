/-
  What operations can do to a store.

  * `Table.Becomes`: what new rows, an UPDATE or a DELETE make of a table;
  * `Store.Changes`: what an operation that names a table can make of a store;
  * `Store.require_put`: a table that is put in the place of the one of its name is found there;
    `Store.put_put`: of two such tables the later one stays, and `Store.put_self`: a table in its
    own place changes nothing;
  * `Operation.Keeps name op s`: run on `s`, the operation makes such a change, and none at all if
    it fails.  The rules for `read` and `write` give this for every operation of the store and for
    every statement (`execute_keeps`).
-/
import Mathlib.Data.List.Nodup
import PocketSql.Execution
import PocketSql.Proofs.Table.Changes

namespace PocketSql

/-- What new rows, an UPDATE or a DELETE make of a table. -/
inductive Table.Becomes (t : Table) : Table → Prop
  | insert {clock rows tuples t'} : t.insertRows clock rows = .ok (tuples, t') → t.Becomes t'
  | update {p assignments n t'} : t.update p assignments = .ok (n, t') → t.Becomes t'
  | delete {p} : t.Becomes (t.delete p).2

theorem Table.Becomes.schema_eq {t t' : Table} (h : t.Becomes t') : t'.schema = t.schema := by
  cases h with
  | insert h => obtain ⟨-, rfl⟩ := insertRows_eq_ok.1 h; rfl
  | update h => obtain ⟨_, -, -, -, rfl⟩ := update_eq_ok.1 h; rfl
  | delete => rfl

theorem Table.Becomes.name_eq {t t' : Table} (h : t.Becomes t') : t'.name = t.name :=
  congrArg Schema.name h.schema_eq

/-- What an operation that names a table can make of a store. -/
inductive Store.Changes (s : Store) : String → Store → Prop
  | none {name} : s.Changes name s
  | add {schema} : s.has schema.name = false → s.Changes schema.name (s.add (.ofSchema schema))
  | remove {name} : s.Changes name (s.remove name)
  | put {name t t'} : s.require name = .ok t → t.Becomes t' → s.Changes name (s.put t')

theorem Store.require_eq_ok {s : Store} {name : String} {t : Table} (h : s.require name = .ok t) :
    t ∈ s.tables ∧ t.name = name := by
  unfold require table? at h
  split at h
  · next t₀ ht =>
    cases h
    exact ⟨List.mem_of_find?_eq_some ht, by simpa using List.find?_some ht⟩
  · cases h

/-! ## A table in the place of the one of its name -/

namespace Store

variable {s : Store} {name : String} {t u : Table}

theorem require_eq_ok_iff : s.require name = .ok t ↔ s.tables.find? (·.name == name) = some t := by
  unfold require table?
  split
  · next found h => simp [h]
  · next h => simp [h]

theorem require_put (h : s.require name = .ok t) (hu : u.name = name) :
    (s.put u).require name = .ok u := by
  rw [require_eq_ok_iff] at h ⊢
  subst hu
  obtain ⟨tables⟩ := s
  simp only [put] at h ⊢
  induction tables with
  | nil => cases h
  | cons old rest ih =>
    by_cases hold : old.name = u.name
    · simp [hold]
    · have hrest : rest.find? (·.name == u.name) = some t := by simpa [hold] using h
      simpa [hold] using ih hrest

theorem put_put (hu : u.name = t.name) : (s.put t).put u = s.put u := by
  unfold put
  rw [mk.injEq, List.map_map]
  refine List.map_congr_left fun old _ => ?_
  by_cases hold : old.name = t.name <;> simp [hold, hu]

theorem put_self (hs : s.names.Nodup) (h : s.require name = .ok t) : s.put t = s := by
  obtain ⟨hmem, -⟩ := require_eq_ok h
  have hsame : ∀ old ∈ s.tables, (if old.name == t.name then t else old) = old := by
    intro old hold
    split
    · next hname => exact (List.inj_on_of_nodup_map hs hold hmem (by simpa using hname)).symm
    · rfl
  rw [put, List.map_congr_left hsame, List.map_id']

end Store

/-! ## Operations -/

namespace Operation

variable {α β : Type} {name : String} {s : Store}

/-- Run on a store, an operation changes at most the table of a name, and nothing if it fails. -/
structure Keeps (name : String) (op : Operation α) (s : Store) : Prop where
  changes : s.Changes name (op s).2
  restores : ∀ cause, (op s).1 = .error cause → (op s).2 = s

/-! ## Rules -/

theorem read_bind_ok {look : Store → Except SqlError α} {a : α} (h : look s = .ok a)
    (next : α → Operation β) : (read look >>= next) s = next a s := by
  simp [read, bind, h]

theorem read_bind_error {look : Store → Except SqlError α} {cause : SqlError}
    (h : look s = .error cause) (next : α → Operation β) :
    (read look >>= next) s = (.error cause, s) := by
  simp [read, bind, h]

theorem keeps_pure (a : α) : (pure a : Operation α).Keeps name s :=
  ⟨.none, fun _ _ => rfl⟩

theorem keeps_fail (cause : SqlError) : (fail cause : Operation α).Keeps name s :=
  ⟨.none, fun _ _ => rfl⟩

theorem keeps_write {change : Store → Store} (h : s.Changes name (change s)) :
    (write change).Keeps name s :=
  ⟨h, fun _ hfail => nomatch hfail⟩

/-- What is read leaves the store as it is, so what follows runs on the same store. -/
theorem keeps_read_bind {look : Store → Except SqlError α} {next : α → Operation β}
    (h : ∀ a, look s = .ok a → (next a).Keeps name s) : (read look >>= next).Keeps name s := by
  cases hl : look s with
  | error cause =>
    refine ⟨?_, ?_⟩ <;> rw [read_bind_error hl]
    · exact .none
    · exact fun _ _ => rfl
  | ok a =>
    refine ⟨?_, ?_⟩ <;> rw [read_bind_ok hl]
    · exact (h a hl).changes
    · exact (h a hl).restores

/-- What cannot fail may follow an operation. -/
theorem keeps_bind_of_pure {op : Operation α} {next : α → Operation β}
    (h : op.Keeps name s) (hnext : ∀ a, op s = (.ok a, (op s).2) → ∃ b, next a = pure b) :
    (op >>= next).Keeps name s := by
  cases hs : op s with
  | mk result after =>
    cases result with
    | error cause =>
      have hrun : (op >>= next) s = (.error cause, after) := by simp [bind, hs]
      have hafter : after = s := by simpa [hs] using h.restores cause (by rw [hs])
      refine ⟨?_, ?_⟩ <;> rw [hrun]
      · exact hafter ▸ .none
      · exact fun _ _ => hafter
    | ok a =>
      obtain ⟨b, hb⟩ := hnext a (by rw [hs])
      have hrun : (op >>= next) s = (.ok b, after) := by simp [bind, hs, hb, pure]
      refine ⟨?_, ?_⟩ <;> rw [hrun]
      · simpa [hs] using h.changes
      · exact fun _ hfail => nomatch hfail

theorem keeps_map {op : Operation α} (h : op.Keeps name s) (f : α → β) :
    (op >>= fun a => pure (f a)).Keeps name s :=
  keeps_bind_of_pure h fun a _ => ⟨f a, rfl⟩

/-- Operations that change nothing when they fail, and that succeed alike, leave the same store. -/
theorem Keeps.agree {op op' : Operation α} (h : op.Keeps name s) (h' : op'.Keeps name s)
    (hsame : ∀ a s', op s = (.ok a, s') ↔ op' s = (.ok a, s')) :
    (∀ a, (op s).1 = .ok a ↔ (op' s).1 = .ok a) ∧ (op s).2 = (op' s).2 := by
  have hresult (a : α) : (op s).1 = .ok a ↔ (op' s).1 = .ok a := by
    constructor
    · exact fun ha => congrArg Prod.fst ((hsame a _).1 (Prod.ext ha rfl))
    · exact fun ha => congrArg Prod.fst ((hsame a _).2 (Prod.ext ha rfl))
  refine ⟨hresult, ?_⟩
  cases hop : (op s).1 with
  | ok a => exact (congrArg Prod.snd ((hsame a _).1 (Prod.ext hop rfl))).symm
  | error cause =>
    cases hop' : (op' s).1 with
    | ok a => cases hop.symm.trans ((hresult a).2 hop')
    | error cause' => rw [h.restores cause hop, h'.restores cause' hop']

/-! ## Operations of the store -/

theorem createTable_keeps (schema : Schema) (s : Store) :
    (createTable schema).Keeps schema.name s := by
  refine keeps_read_bind fun taken htaken => ?_
  split
  · exact keeps_fail _
  · next hfree =>
    cases htaken
    exact keeps_write (.add (by simpa using hfree))

theorem dropTable_keeps (name : String) (s : Store) : (dropTable name).Keeps name s := by
  refine keeps_read_bind fun found _ => ?_
  split
  · exact keeps_write .remove
  · exact keeps_fail _

theorem insertRows_keeps (clock : Nat → Timestamp) (name : String) (rows : List Row) (s : Store) :
    (insertRows clock name rows).Keeps name s := by
  refine keeps_read_bind fun t ht => keeps_read_bind fun (tuples, changed) hins => ?_
  exact keeps_map (keeps_write (.put ht (.insert hins))) _

theorem updateRows_keeps (name : String) (p : Row → Bool) (assignments : List (String × Value))
    (s : Store) : (updateRows name p assignments).Keeps name s := by
  refine keeps_read_bind fun t ht => keeps_read_bind fun (n, changed) hupd => ?_
  exact keeps_map (keeps_write (.put ht (.update hupd))) _

theorem deleteRows_keeps (name : String) (p : Row → Bool) (s : Store) :
    (deleteRows name p).Keeps name s := by
  refine keeps_read_bind fun t ht => ?_
  exact keeps_map (keeps_write (.put ht .delete)) _

/-! ## Statements -/

theorem ofColumns_name {name : String} {columns : List Column} {schema : Schema}
    (h : Schema.ofColumns name columns = .ok schema) : schema.name = name := by
  unfold Schema.ofColumns at h
  split at h
  · cases h
  · split at h
    · cases h
    · split at h
      · cases h; rfl
      · cases h

theorem create_keeps (name : String) (columns : List Column) (s : Store) :
    (create name columns).Keeps name s :=
  keeps_read_bind fun schema hschema => ofColumns_name hschema ▸ createTable_keeps schema s

theorem drop_keeps (name : String) (ifExists : Bool) (s : Store) :
    (drop name ifExists).Keeps name s := by
  refine keeps_read_bind fun absent _ => ?_
  split
  · exact keeps_pure _
  · exact keeps_map (dropTable_keeps name s) _

theorem insert_keeps (clock : Nat → Timestamp) (name : String) (columns : Option (List String))
    (rows : List (List Value)) (s : Store) : (insert clock name columns rows).Keeps name s := by
  refine keeps_read_bind fun t _ => ?_
  dsimp only
  split
  · exact keeps_map (insertRows_keeps clock name _ s) _
  · exact keeps_fail _

theorem update_keeps (settings : Settings) (name : String) (assignments : List (String × Value))
    (condition : Option Predicate) (s : Store) :
    (update settings name assignments condition).Keeps name s :=
  keeps_read_bind fun _ _ => keeps_read_bind fun _ _ => updateRows_keeps name _ assignments s

theorem delete_keeps (settings : Settings) (name : String) (condition : Option Predicate)
    (s : Store) : (delete settings name condition).Keeps name s :=
  keeps_read_bind fun _ _ => keeps_read_bind fun _ _ => deleteRows_keeps name _ s

theorem execute_keeps (settings : Settings) (clock : Nat → Timestamp) (statement : Statement)
    (s : Store) : (execute settings clock statement).Keeps statement.table s := by
  cases statement with
  | select query => exact keeps_read_bind fun rows _ => keeps_pure _
  | insert table columns rows => exact keeps_map (insert_keeps clock table columns rows s) _
  | update table assignments condition =>
    simp only [execute]
    split
    · exact keeps_pure _
    · exact keeps_map (update_keeps settings table assignments condition s) _
  | delete table condition =>
    simp only [execute]
    split
    · exact keeps_pure _
    · exact keeps_map (delete_keeps settings table condition s) _
  | createTable table columns => exact keeps_map (create_keeps table columns s) _
  | dropTable table ifExists =>
    refine keeps_bind_of_pure (drop_keeps table ifExists s) fun dropped _ => ?_
    split
    · exact ⟨_, rfl⟩
    · exact ⟨_, rfl⟩

/-! ## Texts -/

theorem executeText_of_ok {settings : Settings} {clock : Nat → Timestamp} {text : List Char}
    {statement : Statement} (h : parse text = .ok statement) (s : Store) :
    executeText settings clock text s = execute settings clock statement s :=
  read_bind_ok h _

theorem executeText_of_error {settings : Settings} {clock : Nat → Timestamp} {text : List Char}
    {cause : SqlError} (h : parse text = .error cause) (s : Store) :
    executeText settings clock text s = (.error cause, s) :=
  read_bind_error h _

end Operation

end PocketSql
