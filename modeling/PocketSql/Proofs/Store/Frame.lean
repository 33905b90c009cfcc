/-
  What a statement leaves alone.

  * `Store.others` are the tables of other names than a given one;
  * `Store.Changes.others_eq`, `Store.Changes.names_eq`: an operation that names a table leaves the
    others as they are, and adds or drops at most the name;
  * `run_frame`: a text that is refused leaves the store as it is, one that only reads does too, and
    every other text leaves all tables but the one it names.
-/
import PocketSql.Proofs.Store.Validity

namespace PocketSql

namespace Store

variable {s s' : Store} {name : String}

/-- The tables of other names, in the order of creation. -/
def others (name : String) (s : Store) : List Table :=
  s.tables.filter fun t => t.name != name

theorem others_add {t : Table} (h : t.name = name) : (s.add t).others name = s.others name := by
  simp [others, add, List.filter_append, h]

theorem others_remove : (s.remove name).others name = s.others name := by
  simp [others, remove, List.filter_filter]

theorem others_put {t : Table} (h : t.name = name) : (s.put t).others name = s.others name := by
  subst h
  unfold others put
  induction s.tables with
  | nil => rfl
  | cons u rest ih =>
    by_cases hu : u.name = t.name
    · simpa [hu] using ih
    · simpa [hu] using ih

theorem Changes.others_eq (h : s.Changes name s') : s'.others name = s.others name := by
  cases h with
  | none => rfl
  | add => exact others_add rfl
  | remove => exact others_remove
  | put hreq hbecomes => exact others_put (hbecomes.name_eq.trans (require_eq_ok hreq).2)

theorem names_add (t : Table) (s : Store) : (s.add t).names = s.names ++ [t.name] := by
  simp [names, add]

theorem names_remove (name : String) (s : Store) :
    (s.remove name).names = s.names.filter (· != name) := by
  simp only [names, remove, List.filter_map]
  rfl

theorem Changes.names_eq (h : s.Changes name s') :
    s'.names = s.names ∨ (name ∉ s.names ∧ s'.names = s.names ++ [name]) ∨
      s'.names = s.names.filter (· != name) := by
  cases h with
  | none => exact .inl rfl
  | add hfree => exact .inr (.inl ⟨has_eq_false_iff.1 hfree, names_add _ s⟩)
  | remove => exact .inr (.inr (names_remove name s))
  | put => exact .inl (names_put _ s)

end Store

/-! ## Statements -/

/-- A statement that changes no table: a SELECT, or one that is only acknowledged. -/
def Statement.readsOnly (mode : MutationMode) : Statement → Bool
  | select _ => true
  | update .. | delete .. => mode = .simulated
  | insert .. | createTable .. | dropTable .. => false

namespace Operation

variable {settings : Settings} {clock : Nat → Timestamp} {statement : Statement}

theorem execute_of_readsOnly (h : statement.readsOnly settings.mutationMode = true) (s : Store) :
    (execute settings clock statement s).2 = s := by
  cases statement with
  | select query =>
    cases hl : s.select settings query with
    | ok rows => simp only [execute]; rw [read_bind_ok hl]; rfl
    | error cause => simp only [execute]; rw [read_bind_error hl]
  | update table assignments condition =>
    have hmode : settings.mutationMode = .simulated := by simpa [Statement.readsOnly] using h
    simp only [execute, hmode]
    rfl
  | delete table condition =>
    have hmode : settings.mutationMode = .simulated := by simpa [Statement.readsOnly] using h
    simp only [execute, hmode]
    rfl
  | insert | createTable | dropTable => cases h

end Operation

/-- **A text changes at most the table it names.**  The store is as it was if the text is refused,
    be it while it is read or while it runs, and if its statement only reads.  In every case the
    other tables keep their definitions, rows and order, and the table names change at most by the
    one that is named, which comes last or goes. -/
theorem run_frame (settings : Settings) (clock : Nat → Timestamp) (store : Store)
    (text : List Char) :
    let (result, after) := store.run settings clock text
    (∀ cause, result = .error cause → after = store) ∧
    ∀ statement, parse text = .ok statement →
      (statement.readsOnly settings.mutationMode = true → after = store) ∧
      after.others statement.table = store.others statement.table ∧
      (after.names = store.names ∨
        (statement.table ∉ store.names ∧ after.names = store.names ++ [statement.table]) ∨
        after.names = store.names.filter (· != statement.table)) := by
  unfold Store.run
  cases hparse : parse text with
  | error cause =>
    rw [Operation.executeText_of_error hparse]
    exact ⟨fun _ _ => rfl, fun _ h => nomatch h⟩
  | ok statement =>
    rw [Operation.executeText_of_ok hparse]
    obtain ⟨hchanges, hrestores⟩ := Operation.execute_keeps settings clock statement store
    refine ⟨hrestores, ?_⟩
    rintro _ ⟨⟩
    exact ⟨fun h => Operation.execute_of_readsOnly h store, hchanges.others_eq, hchanges.names_eq⟩

end PocketSql
