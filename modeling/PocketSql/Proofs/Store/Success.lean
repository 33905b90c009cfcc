/-
  What it takes for operations to succeed, and what they leave then.

  * `Operation.bind_eq_ok`, `Operation.read_eq_ok`, `Operation.write_eq_ok` peel an operation apart,
    and so do `Operation.bind_eq_error`, `Operation.read_eq_error` when it fails;
  * `Operation.update_eq_ok`, `Operation.delete_eq_ok`: an UPDATE or a DELETE finds the table,
    settles the condition and puts the changed table in the place of the old one;
    `Operation.execute_update_leaves`: an UPDATE that fails, or is only acknowledged, leaves the
    store as it is;
  * `count_le_of_condition`: a statement with a condition shows or affects no more rows than satisfy
    the condition.
-/
import PocketSql.Proofs.Ordering.Runs
import PocketSql.Proofs.Store.Change

namespace PocketSql

namespace Operation

variable {α β : Type} {s s' : Store} {name : String}

theorem bind_eq_ok {op : Operation α} {next : α → Operation β} {b : β} :
    (op >>= next) s = (.ok b, s') ↔ ∃ a u, op s = (.ok a, u) ∧ next a u = (.ok b, s') := by
  cases hs : op s with
  | mk result after =>
    cases result with
    | error cause => simp [bind, hs]
    | ok a => simp [bind, hs, and_assoc]

theorem pure_eq_ok {a b : α} : (pure a : Operation α) s = (.ok b, s') ↔ a = b ∧ s = s' := by
  simp [pure]

theorem read_eq_ok {look : Store → Except SqlError α} {a : α} :
    read look s = (.ok a, s') ↔ look s = .ok a ∧ s = s' := by
  simp [read]

theorem write_eq_ok {change : Store → Store} {a : Unit} :
    write change s = (.ok a, s') ↔ change s = s' := by
  simp [write]

theorem bind_eq_error {op : Operation α} {next : α → Operation β} {cause : SqlError} :
    (op >>= next) s = (.error cause, s') ↔
      op s = (.error cause, s') ∨ ∃ a u, op s = (.ok a, u) ∧ next a u = (.error cause, s') := by
  cases hs : op s with
  | mk result after =>
    cases result with
    | error found => simp [bind, hs]
    | ok a => simp [bind, hs, and_assoc]

theorem read_eq_error {look : Store → Except SqlError α} {cause : SqlError} :
    read look s = (.error cause, s') ↔ look s = .error cause ∧ s = s' := by
  simp [read]

/-! ## New rows -/

theorem insertRows_eq_ok {clock : Nat → Timestamp} {rows inserted : List Row} :
    insertRows clock name rows s = (.ok inserted, s') ↔
      ∃ t tuples t', s.require name = .ok t ∧ t.insertRows clock rows = .ok (tuples, t') ∧
        s.put t' = s' ∧ tuples.map t.schema.rowOf = inserted := by
  simp only [insertRows, bind_eq_ok, read_eq_ok, write_eq_ok, pure_eq_ok]
  constructor
  · rintro ⟨t, _, ⟨ht, rfl⟩, ⟨tuples, t'⟩, _, ⟨hins, rfl⟩, _, _, rfl, rfl, rfl⟩
    exact ⟨t, tuples, t', ht, hins, rfl, rfl⟩
  · rintro ⟨t, tuples, t', ht, hins, rfl, rfl⟩
    exact ⟨t, s, ⟨ht, rfl⟩, (tuples, t'), s, ⟨hins, rfl⟩, (), _, rfl, rfl, rfl⟩

/-- Rows are not added if there is no table or the table refuses them. -/
theorem insertRows_eq_error {clock : Nat → Timestamp} {rows : List Row} {cause : SqlError}
    (h : insertRows clock name rows s = (.error cause, s')) :
    s' = s ∧ (s.require name = .error cause ∨
      ∃ t, s.require name = .ok t ∧ t.insertRows clock rows = .error cause) := by
  simp only [insertRows, bind_eq_error, read_eq_error, read_eq_ok] at h
  rcases h with ⟨ht, rfl⟩ | ⟨t, _, ⟨ht, rfl⟩, ⟨hins, rfl⟩ | ⟨_, _, -, h | ⟨_, _, -, h⟩⟩⟩
  · exact ⟨rfl, .inl ht⟩
  · exact ⟨rfl, .inr ⟨t, ht, hins⟩⟩
  · cases h
  · cases h

/-! ## Changes of rows -/

theorem updateRows_eq_ok {p : Row → Bool} {assignments : List (String × Value)} {n : Nat} :
    updateRows name p assignments s = (.ok n, s') ↔
      ∃ t t', s.require name = .ok t ∧ t.update p assignments = .ok (n, t') ∧ s.put t' = s' := by
  simp only [updateRows, bind_eq_ok, read_eq_ok, write_eq_ok, pure_eq_ok]
  constructor
  · rintro ⟨t, _, ⟨ht, rfl⟩, ⟨m, t'⟩, _, ⟨hupd, rfl⟩, _, _, rfl, rfl, rfl⟩
    exact ⟨t, t', ht, hupd, rfl⟩
  · rintro ⟨t, t', ht, hupd, rfl⟩
    exact ⟨t, s, ⟨ht, rfl⟩, (n, t'), s, ⟨hupd, rfl⟩, (), _, rfl, rfl, rfl⟩

/-- Rows are not changed if there is no table or the table refuses the changes. -/
theorem updateRows_eq_error {p : Row → Bool} {assignments : List (String × Value)}
    {cause : SqlError} (h : updateRows name p assignments s = (.error cause, s')) :
    s' = s ∧ (s.require name = .error cause ∨
      ∃ t, s.require name = .ok t ∧ t.update p assignments = .error cause) := by
  simp only [updateRows, bind_eq_error, read_eq_error, read_eq_ok] at h
  rcases h with ⟨ht, rfl⟩ | ⟨t, _, ⟨ht, rfl⟩, ⟨hupd, rfl⟩ | ⟨_, _, -, h | ⟨_, _, -, h⟩⟩⟩
  · exact ⟨rfl, .inl ht⟩
  · exact ⟨rfl, .inr ⟨t, ht, hupd⟩⟩
  · cases h
  · cases h

theorem deleteRows_eq_ok {p : Row → Bool} {n : Nat} :
    deleteRows name p s = (.ok n, s') ↔
      ∃ t, s.require name = .ok t ∧ (t.delete p).1 = n ∧ s.put (t.delete p).2 = s' := by
  simp only [deleteRows, bind_eq_ok, read_eq_ok, write_eq_ok, pure_eq_ok]
  constructor
  · rintro ⟨t, _, ⟨ht, rfl⟩, _, _, rfl, rfl, rfl⟩
    exact ⟨t, ht, rfl, rfl⟩
  · rintro ⟨t, ht, rfl, rfl⟩
    exact ⟨t, s, ⟨ht, rfl⟩, (), _, rfl, rfl, rfl⟩

theorem update_eq_ok {settings : Settings} {assignments : List (String × Value)}
    {condition : Option Predicate} {n : Nat} :
    update settings name assignments condition s = (.ok n, s') ↔
      ∃ t settled t', s.require name = .ok t ∧
        resolveCondition settings.predicatePolicy t.schema condition = .ok settled ∧
        t.update (meets settled) assignments = .ok (n, t') ∧ s.put t' = s' := by
  simp only [update, bind_eq_ok, read_eq_ok, updateRows_eq_ok]
  constructor
  · rintro ⟨t, _, ⟨ht, rfl⟩, settled, _, ⟨hsettled, rfl⟩, u, t', hu, hupd, rfl⟩
    rw [ht, Except.ok.injEq] at hu
    exact ⟨t, settled, t', ht, hsettled, hu ▸ hupd, rfl⟩
  · rintro ⟨t, settled, t', ht, hsettled, hupd, rfl⟩
    exact ⟨t, s, ⟨ht, rfl⟩, settled, s, ⟨hsettled, rfl⟩, t, t', ht, hupd, rfl⟩

theorem delete_eq_ok {settings : Settings} {condition : Option Predicate} {n : Nat} :
    delete settings name condition s = (.ok n, s') ↔
      ∃ t settled, s.require name = .ok t ∧
        resolveCondition settings.predicatePolicy t.schema condition = .ok settled ∧
        (t.delete (meets settled)).1 = n ∧ s.put (t.delete (meets settled)).2 = s' := by
  simp only [delete, bind_eq_ok, read_eq_ok, deleteRows_eq_ok]
  constructor
  · rintro ⟨t, _, ⟨ht, rfl⟩, settled, _, ⟨hsettled, rfl⟩, u, hu, rfl, rfl⟩
    rw [ht, Except.ok.injEq] at hu
    subst hu
    exact ⟨t, settled, ht, hsettled, rfl, rfl⟩
  · rintro ⟨t, settled, ht, hsettled, rfl, rfl⟩
    exact ⟨t, s, ⟨ht, rfl⟩, settled, s, ⟨hsettled, rfl⟩, t, ht, rfl, rfl⟩

/-- An UPDATE leaves the store as it is, or puts in the place of its table what assignments in some
    of the rows make of it. -/
theorem execute_update_leaves (settings : Settings) (clock : Nat → Timestamp) (name : String)
    (assignments : List (String × Value)) (condition : Option Predicate) (s : Store) :
    let after := (execute settings clock (.update name assignments condition) s).2
    after = s ∨ ∃ t q n t', s.require name = .ok t ∧ t.update q assignments = .ok (n, t') ∧
      after = s.put t' := by
  intro after
  have hkeeps := execute_keeps settings clock (.update name assignments condition) s
  cases hresult : (execute settings clock (.update name assignments condition) s).1 with
  | error cause => exact .inl (hkeeps.restores cause hresult)
  | ok outcome =>
    have hrun : execute settings clock (.update name assignments condition) s =
        (.ok outcome, after) := Prod.ext hresult rfl
    cases hmode : settings.mutationMode with
    | simulated =>
      simp only [execute, hmode, pure_eq_ok] at hrun
      exact .inl hrun.2.symm
    | apply =>
      simp only [execute, hmode, bind_eq_ok, update_eq_ok, pure_eq_ok] at hrun
      obtain ⟨n, _, ⟨t, settled, t', ht, -, hupdate, rfl⟩, -, hafter⟩ := hrun
      exact .inr ⟨t, _, n, t', ht, hupdate, hafter.symm⟩

end Operation

/-! ## Conditions -/

/-- A condition that is understood stays as it is. -/
theorem resolveCondition_eq_ok {policy : PredicatePolicy} {schema : Schema} {p : Predicate}
    {settled : Option Predicate} (hp : p.unsupported? = none)
    (h : resolveCondition policy schema (some p) = .ok settled) : settled = some p := by
  simp only [resolveCondition, hp, PocketSql.bind_eq_ok] at h
  obtain ⟨_, -, h⟩ := h
  exact (Except.ok.inj h).symm

/-- The condition of a statement. -/
def Statement.condition : Statement → Option Predicate
  | select query => query.condition
  | update _ _ condition | delete _ condition => condition
  | insert .. | createTable .. | dropTable .. => none

/-- The number of rows that an outcome shows or counts. -/
def Outcome.count : Outcome → Nat
  | rows shown => shown.length
  | affected count _ => count

/-- The stored rows that satisfy a condition. -/
def Table.kept (t : Table) (p : Predicate) : List Tuple :=
  t.rows.filter (t.selects (meets (some p)))

theorem Table.length_kept (t : Table) (p : Predicate) :
    (t.kept p).length = t.rows.countP (t.selects (meets (some p))) :=
  List.countP_eq_length_filter.symm

theorem length_page_le {α : Type} (offset limit : Option Nat) (xs : List α) :
    (page offset limit xs).length ≤ xs.length := by
  have hdrop : (xs.drop (offset.getD 0)).length ≤ xs.length := by
    rw [List.length_drop]
    exact Nat.sub_le _ _
  cases limit with
  | none => exact hdrop
  | some n => exact Nat.le_trans (List.length_take_le' n _) hdrop

theorem select_count_le {settings : Settings} {query : Query} {s : Store} {t : Table}
    {p : Predicate} {shown : List Row} (hp : p.unsupported? = none)
    (ht : s.require query.table = .ok t) (hc : query.condition = some p)
    (h : s.select settings query = .ok shown) : shown.length ≤ (t.kept p).length := by
  simp only [Store.select, PocketSql.bind_eq_ok, hc, Except.ok.injEq] at h
  obtain ⟨u, hu, _, -, _, -, settled, hsettled, sorted, hsorted, rfl⟩ := h
  rw [ht, Except.ok.injEq] at hu
  subst hu
  rw [List.length_map]
  refine Nat.le_trans (length_page_le _ _ _) ?_
  rw [(perm_of_sortRows hsorted).length_eq, resolveCondition_eq_ok hp hsettled, Table.scan,
    List.filter_map, List.length_map]
  exact Nat.le_refl _

/-- A statement with a condition shows or affects no more rows than satisfy the condition; one that
    is only acknowledged says one. -/
theorem count_le_of_condition {settings : Settings} {clock : Nat → Timestamp}
    {statement : Statement} {s : Store} {t : Table} {p : Predicate} {outcome : Outcome}
    (hp : p.unsupported? = none) (ht : s.require statement.table = .ok t)
    (hc : statement.condition = some p)
    (h : (Operation.execute settings clock statement s).1 = .ok outcome) :
    outcome.count ≤ max 1 (t.kept p).length := by
  obtain ⟨s', h⟩ : ∃ s', Operation.execute settings clock statement s = (.ok outcome, s') :=
    ⟨_, Prod.ext h rfl⟩
  cases statement with
  | select query =>
    simp only [Operation.execute, Operation.bind_eq_ok, Operation.read_eq_ok,
      Operation.pure_eq_ok] at h
    obtain ⟨shown, _, ⟨hsel, rfl⟩, rfl, -⟩ := h
    exact Nat.le_trans (select_count_le hp ht hc hsel) (Nat.le_max_right _ _)
  | update table assignments condition =>
    obtain rfl : condition = some p := hc
    cases hmode : settings.mutationMode with
    | simulated =>
      simp only [Operation.execute, hmode] at h
      obtain ⟨rfl, -⟩ := Operation.pure_eq_ok.1 h
      exact Nat.le_max_left _ _
    | apply =>
      simp only [Operation.execute, hmode, Operation.bind_eq_ok, Operation.update_eq_ok,
        Operation.pure_eq_ok] at h
      obtain ⟨n, _, ⟨u, settled, t', hu, hsettled, hupd, -⟩, rfl, -⟩ := h
      obtain rfl : t = u := Except.ok.inj (ht.symm.trans hu)
      obtain ⟨_, -, -, rfl, -⟩ := Table.update_eq_ok.1 hupd
      rw [resolveCondition_eq_ok hp hsettled, ← Table.length_kept]
      exact Nat.le_max_right _ _
  | delete table condition =>
    obtain rfl : condition = some p := hc
    cases hmode : settings.mutationMode with
    | simulated =>
      simp only [Operation.execute, hmode] at h
      obtain ⟨rfl, -⟩ := Operation.pure_eq_ok.1 h
      exact Nat.le_max_left _ _
    | apply =>
      simp only [Operation.execute, hmode, Operation.bind_eq_ok, Operation.delete_eq_ok,
        Operation.pure_eq_ok] at h
      obtain ⟨n, _, ⟨u, settled, hu, hsettled, rfl, -⟩, rfl, -⟩ := h
      obtain rfl : t = u := Except.ok.inj (ht.symm.trans hu)
      rw [resolveCondition_eq_ok hp hsettled, Table.delete_fst, ← Table.length_kept]
      exact Nat.le_max_right _ _
  | insert | createTable | dropTable => cases hc

end PocketSql
