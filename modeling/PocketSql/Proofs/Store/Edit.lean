/-
  What a statement does, as an edit of the table that it names.

  * `Store.Edit` is a change of a store, `Store.Edit.Of` says which ones a statement may make, from
    the table it finds and the columns it declares;
  * `Operation.Acts`: with a given table under its name, an operation gives one result and makes one
    edit, whatever else the store holds.  The rules for `read` and `write` give this for every
    statement (`execute_acts`);
  * `Edit.table?_apply`, `Edit.apply_comm`: edits of other names do not disturb each other.
-/
import PocketSql.Proofs.Store.Change

namespace PocketSql

/-- The columns that a statement declares. -/
def Statement.columns : Statement → List Column
  | createTable _ columns => columns
  | select _ | insert .. | update .. | delete .. | dropTable .. => []

namespace Store

/-- A change of a store. -/
inductive Edit
  | keep
  | add (schema : Schema)
  | remove (name : String)
  | put (table : Table)

namespace Edit

/-- The store after a change. -/
def apply : Edit → Store → Store
  | keep, s => s
  | add schema, s => s.add (.ofSchema schema)
  | remove name, s => s.remove name
  | put t, s => s.put t

/-- What a statement may do that names a table and declares columns, by the table it finds. -/
inductive Of (name : String) (columns : List Column) : Option Table → Edit → Prop
  | keep {t?} : Of name columns t? .keep
  | add {schema} : Schema.ofColumns name columns = .ok schema → Of name columns none (.add schema)
  | remove {t} : Of name columns (some t) (.remove name)
  | put {t t'} : t.Becomes t' → Of name columns (some t) (.put t')

/-- A change that touches no table but that of a name. -/
def Names (name : String) : Edit → Prop
  | keep => True
  | add schema => schema.name = name
  | remove other => other = name
  | put t => t.name = name

end Edit

variable {s : Store} {name other : String} {t u : Table}

theorem require_eq (s : Store) (name : String) :
    s.require name = match s.table? name with
      | some t => .ok t
      | none => .error (.unknownTable name) := rfl

theorem has_eq_isSome (s : Store) (name : String) : s.has name = (s.table? name).isSome := by
  rw [Bool.eq_iff_iff, has, table?, List.any_eq_true, List.find?_isSome]

theorem name_of_table? (h : s.table? name = some t) : t.name = name := by
  simpa using List.find?_some h

theorem table?_toList {t? : Option Table} (h : s.table? name = t?) :
    (⟨t?.toList⟩ : Store).table? name = t? := by
  cases t? with
  | none => rfl
  | some t => simp [table?, name_of_table? h]

theorem Edit.Of.names {columns : List Column} {edit : Edit}
    (h : Of name columns (s.table? name) edit) : edit.Names name := by
  generalize ht : s.table? name = t? at h
  cases h with
  | keep => trivial
  | add hschema => exact Operation.ofColumns_name hschema
  | remove => rfl
  | put hbecomes => exact hbecomes.name_eq.trans (name_of_table? ht)

/-! ## Other names -/

theorem table?_add (hne : t.name ≠ name) : (s.add t).table? name = s.table? name := by
  simp [table?, add, hne]

theorem table?_remove (hne : other ≠ name) : (s.remove other).table? name = s.table? name := by
  obtain ⟨tables⟩ := s
  simp only [table?, remove]
  induction tables with
  | nil => rfl
  | cons u rest ih =>
    by_cases hu : u.name = other
    · have hother : u.name ≠ name := hu ▸ hne
      simpa [hu, hne] using ih
    · simp [hu, List.find?_cons, ih]

theorem table?_put (hne : t.name ≠ name) : (s.put t).table? name = s.table? name := by
  obtain ⟨tables⟩ := s
  simp only [table?, put]
  induction tables with
  | nil => rfl
  | cons u rest ih =>
    rw [List.map_cons, List.find?_cons, List.find?_cons, ih]
    by_cases hu : u.name = t.name
    · have hother : (t.name == name) = false := by simpa using hne
      simp [hu, hother]
    · simp [hu]

/-! ## Two changes -/

theorem put_comm (hne : t.name ≠ u.name) (s : Store) : (s.put t).put u = (s.put u).put t := by
  unfold put
  rw [mk.injEq, List.map_map, List.map_map]
  refine List.map_congr_left fun old _ => ?_
  by_cases ht : old.name = t.name
  · simp [ht, hne]
  · by_cases hu : old.name = u.name <;> simp [ht, hu, hne.symm]

theorem put_add (hne : u.name ≠ t.name) (s : Store) : (s.add u).put t = (s.put t).add u := by
  simp [put, add, hne]

theorem remove_put (t : Table) (name : String) (s : Store) :
    (s.put t).remove name = (s.remove name).put t := by
  unfold put remove
  rw [mk.injEq, List.filter_map]
  congr 1
  refine List.filter_congr fun old _ => ?_
  by_cases hold : old.name = t.name <;> simp [hold]

theorem remove_add (hne : t.name ≠ name) (s : Store) :
    (s.add t).remove name = (s.remove name).add t := by
  simp [remove, add, List.filter_append, hne]

theorem remove_comm (name other : String) (s : Store) :
    (s.remove name).remove other = (s.remove other).remove name := by
  simp [remove, List.filter_filter, Bool.and_comm]

namespace Edit

variable {edit edit' : Edit}

/-- A change that adds no table. -/
def AddsNone : Edit → Prop
  | add _ => False
  | keep | remove _ | put _ => True

/-- A change leaves the tables of other names. -/
theorem table?_apply (h : edit.Names name) (hne : name ≠ other) (s : Store) :
    (edit.apply s).table? other = s.table? other := by
  cases edit with
  | keep => rfl
  | add schema => exact table?_add (show schema.name ≠ other from h.symm ▸ hne)
  | remove removed => exact table?_remove (h.symm ▸ hne)
  | put t => exact table?_put (h.symm ▸ hne)

/-- Changes of different names may be made in either order, unless both add a table. -/
theorem apply_comm (h : edit.Names name) (h' : edit'.Names other) (hne : name ≠ other)
    (hadd : edit.AddsNone ∨ edit'.AddsNone) (s : Store) :
    edit'.apply (edit.apply s) = edit.apply (edit'.apply s) := by
  cases edit with
  | keep => rfl
  | add schema =>
    obtain rfl : schema.name = name := h
    cases edit' with
    | keep => rfl
    | add => exact hadd.elim False.elim False.elim
    | remove removed =>
      obtain rfl : removed = other := h'
      exact remove_add (t := .ofSchema schema) hne s
    | put u =>
      obtain rfl : u.name = other := h'
      exact put_add (u := .ofSchema schema) hne s
  | remove removed =>
    obtain rfl : removed = name := h
    cases edit' with
    | keep => rfl
    | add schema =>
      obtain rfl : schema.name = other := h'
      exact (remove_add (t := .ofSchema schema) hne.symm s).symm
    | remove removed' => exact remove_comm removed removed' s
    | put u => exact (remove_put u removed s).symm
  | put t =>
    obtain rfl : t.name = name := h
    cases edit' with
    | keep => rfl
    | add schema =>
      obtain rfl : schema.name = other := h'
      exact (put_add (u := .ofSchema schema) hne.symm s).symm
    | remove removed => exact remove_put t removed s
    | put u =>
      obtain rfl : u.name = other := h'
      exact put_comm hne s

theorem Of.addsNone {t? : Option Table} (h : edit.Of name [] t?) : edit.AddsNone := by
  cases h with
  | add hschema => cases hschema
  | keep | remove | put => trivial

end Edit

end Store

namespace Operation

variable {α β : Type} {name : String} {columns : List Column} {t? : Option Table}

/-- With a table under a name, or none, an operation gives a result and makes a change that it may
    make, whatever else the store holds. -/
def Acts (name : String) (columns : List Column) (t? : Option Table) (op : Operation α) : Prop :=
  ∃ (result : Except SqlError α) (edit : Store.Edit), edit.Of name columns t? ∧
    ∀ s : Store, s.table? name = t? → op s = (result, edit.apply s)

/-! ## Rules -/

theorem acts_pure (a : α) : (pure a : Operation α).Acts name columns t? :=
  ⟨.ok a, .keep, .keep, fun _ _ => rfl⟩

theorem acts_fail (cause : SqlError) : (fail cause : Operation α).Acts name columns t? :=
  ⟨.error cause, .keep, .keep, fun _ _ => rfl⟩

theorem acts_write {edit : Store.Edit} (h : edit.Of name columns t?) :
    (write edit.apply).Acts name columns t? :=
  ⟨.ok (), edit, h, fun _ _ => rfl⟩

/-- What is read depends on the table of the name only. -/
theorem acts_read_bind {look : Store → Except SqlError α} {result : Except SqlError α}
    {next : α → Operation β} (hlook : ∀ s, s.table? name = t? → look s = result)
    (h : ∀ a, result = .ok a → (next a).Acts name columns t?) :
    (read look >>= next).Acts name columns t? := by
  cases result with
  | error cause =>
    exact ⟨.error cause, .keep, .keep, fun s hs => read_bind_error (hlook s hs) next⟩
  | ok a =>
    obtain ⟨result, edit, hedit, hrun⟩ := h a rfl
    exact ⟨result, edit, hedit, fun s hs => (read_bind_ok (hlook s hs) next).trans (hrun s hs)⟩

/-- What cannot fail and reads nothing may follow an operation. -/
theorem acts_bind_of_pure {op : Operation α} {next : α → Operation β}
    (h : op.Acts name columns t?) (hnext : ∀ a, ∃ b, next a = pure b) :
    (op >>= next).Acts name columns t? := by
  obtain ⟨result, edit, hedit, hrun⟩ := h
  cases result with
  | error cause =>
    exact ⟨.error cause, edit, hedit, fun s hs => by simp [bind, hrun s hs]⟩
  | ok a =>
    obtain ⟨b, hb⟩ := hnext a
    exact ⟨.ok b, edit, hedit, fun s hs => by simp [bind, hrun s hs, hb, pure]⟩

theorem acts_map {op : Operation α} (h : op.Acts name columns t?) (f : α → β) :
    (op >>= fun a => pure (f a)).Acts name columns t? :=
  acts_bind_of_pure h fun a => ⟨f a, rfl⟩

/-- The table of the name is looked up. -/
theorem acts_require_bind {next : Table → Operation β}
    (h : ∀ t, t? = some t → (next t).Acts name columns t?) :
    (read (·.require name) >>= next).Acts name columns t? := by
  refine acts_read_bind (fun s hs => by rw [Store.require_eq, hs]) fun t ht => h t ?_
  cases t? with
  | none => cases ht
  | some u => exact congrArg some (Except.ok.inj ht)

/-- It is looked whether there is a table of the name. -/
theorem acts_has_bind (look : Bool → Bool) {next : Bool → Operation β}
    (h : (next (look t?.isSome)).Acts name columns t?) :
    (read (fun s => .ok (look (s.has name))) >>= next).Acts name columns t? := by
  have hlook : ∀ s : Store, s.table? name = t? →
      (.ok (look (s.has name)) : Except SqlError Bool) = .ok (look t?.isSome) := by
    intro s hs
    rw [Store.has_eq_isSome, hs]
  exact acts_read_bind hlook fun _ hfound => Except.ok.inj hfound ▸ h

/-! ## Operations of the store -/

theorem createTable_acts {schema : Schema} (hschema : Schema.ofColumns name columns = .ok schema)
    (t? : Option Table) : (createTable schema).Acts name columns t? := by
  obtain rfl := ofColumns_name hschema
  refine acts_has_bind id ?_
  cases t? with
  | none => exact acts_write (.add hschema)
  | some t => exact acts_fail _

theorem dropTable_acts (name : String) (columns : List Column) (t? : Option Table) :
    (dropTable name).Acts name columns t? := by
  refine acts_has_bind id ?_
  cases t? with
  | none => exact acts_fail _
  | some t => exact acts_write .remove

/-- A table that is there is changed. -/
theorem acts_put {t t' : Table} (ht : t? = some t) (h : t.Becomes t') :
    (write (·.put t')).Acts name columns t? := by
  subst ht
  exact acts_write (.put h)

theorem insertRows_acts (clock : Nat → Timestamp) (name : String) (rows : List Row)
    (columns : List Column) (t? : Option Table) :
    (insertRows clock name rows).Acts name columns t? := by
  refine acts_require_bind fun t ht => acts_read_bind (fun _ _ => rfl) fun (tuples, t') hins => ?_
  exact acts_map (acts_put ht (.insert hins)) _

theorem updateRows_acts (name : String) (p : Row → Bool) (assignments : List (String × Value))
    (columns : List Column) (t? : Option Table) :
    (updateRows name p assignments).Acts name columns t? := by
  refine acts_require_bind fun t ht => acts_read_bind (fun _ _ => rfl) fun (n, t') hupd => ?_
  exact acts_map (acts_put ht (.update hupd)) _

theorem deleteRows_acts (name : String) (p : Row → Bool) (columns : List Column)
    (t? : Option Table) : (deleteRows name p).Acts name columns t? :=
  acts_require_bind fun _ ht => acts_map (acts_put ht .delete) _

/-! ## Statements -/

theorem create_acts (name : String) (columns : List Column) (t? : Option Table) :
    (create name columns).Acts name columns t? :=
  acts_read_bind (fun _ _ => rfl) fun _ hschema => createTable_acts hschema t?

theorem drop_acts (name : String) (ifExists : Bool) (columns : List Column) (t? : Option Table) :
    (drop name ifExists).Acts name columns t? := by
  refine acts_has_bind (fun found => ifExists && !found) ?_
  split
  · exact acts_pure _
  · exact acts_map (dropTable_acts name columns t?) _

theorem insert_acts (clock : Nat → Timestamp) (name : String) (names : Option (List String))
    (rows : List (List Value)) (columns : List Column) (t? : Option Table) :
    (insert clock name names rows).Acts name columns t? := by
  refine acts_require_bind fun t _ => ?_
  dsimp only
  split
  · exact acts_map (insertRows_acts clock name _ columns t?) _
  · exact acts_fail _

theorem update_acts (settings : Settings) (name : String) (assignments : List (String × Value))
    (condition : Option Predicate) (columns : List Column) (t? : Option Table) :
    (update settings name assignments condition).Acts name columns t? :=
  acts_require_bind fun _ _ => acts_read_bind (fun _ _ => rfl) fun _ _ =>
    updateRows_acts name _ assignments columns t?

theorem delete_acts (settings : Settings) (name : String) (condition : Option Predicate)
    (columns : List Column) (t? : Option Table) :
    (delete settings name condition).Acts name columns t? :=
  acts_require_bind fun _ _ => acts_read_bind (fun _ _ => rfl) fun _ _ =>
    deleteRows_acts name _ columns t?

/-- A query reads the table that it names and no other. -/
theorem select_congr (settings : Settings) (query : Query) {s s' : Store}
    (h : s.table? query.table = s'.table? query.table) :
    s.select settings query = s'.select settings query := by
  unfold Store.select
  rw [Store.require_eq, Store.require_eq, h]

theorem execute_acts (settings : Settings) (clock : Nat → Timestamp) (statement : Statement)
    (t? : Option Table) :
    (execute settings clock statement).Acts statement.table statement.columns t? := by
  cases statement with
  | select query =>
    have hselect : ∀ s, Store.table? s query.table = t? →
        s.select settings query = Store.select settings query ⟨t?.toList⟩ := by
      intro s hs
      exact select_congr settings query (hs.trans (Store.table?_toList hs).symm)
    exact acts_read_bind hselect fun rows _ => acts_pure _
  | insert table names rows => exact acts_map (insert_acts clock table names rows [] t?) _
  | update table assignments condition =>
    simp only [execute]
    split
    · exact acts_pure _
    · exact acts_map (update_acts settings table assignments condition [] t?) _
  | delete table condition =>
    simp only [execute]
    split
    · exact acts_pure _
    · exact acts_map (delete_acts settings table condition [] t?) _
  | createTable table columns => exact acts_map (create_acts table columns t?) _
  | dropTable table ifExists =>
    refine acts_bind_of_pure (drop_acts table ifExists [] t?) fun dropped => ?_
    split
    · exact ⟨_, rfl⟩
    · exact ⟨_, rfl⟩

end Operation

end PocketSql
