/-
  Stored rows and the identities they hold in unique columns.

  * A `Tuple` has one cell for each column in order;
  * a `KeySet` holds the identities that stand in one unique column, `Schema.keySets` those of all
    unique columns in some rows;
  * `enroll` refuses a row that repeats an identity, and otherwise adds its own;
    `enrollAll` does so for rows one after the other.

  Adding a row to the sets of some rows gives the sets of these rows and that one
  (`Schema.keySets_append`).
-/
import PocketSql.Table.Schema
import PocketSql.Value.Compare

namespace PocketSql

/-- The cells of a stored row, one for each column in order. -/
abbrev Tuple := List Value

/-- The cell of a stored row in a column. -/
def Tuple.cell (tuple : Tuple) (i : Nat) : Value :=
  tuple.getD i .null

/-- A stored row after assignments; of two to one column the later one counts. -/
def Tuple.assign (tuple : Tuple) (assignments : List (Nat × Value)) : Tuple :=
  assignments.foldl (fun t a => t.set a.1 a.2) tuple

/-- The identities that stand in a unique column. -/
structure KeySet where
  place : Nat
  column : String
  keys : List UniqueKey

namespace KeySet

/-- The set with the identity of a row, if the row has one. -/
def add (tuple : Tuple) (s : KeySet) : KeySet :=
  { s with keys := s.keys ++ (tuple.cell s.place).key?.toList }

/-- The set with the identities of some rows. -/
def addAll (rows : List Tuple) (s : KeySet) : KeySet :=
  { s with keys := s.keys ++ rows.filterMap fun tuple => (tuple.cell s.place).key? }

/-- A row has an identity of the set. -/
def isHit (tuple : Tuple) (s : KeySet) : Bool :=
  match (tuple.cell s.place).key? with
  | some key => s.keys.contains key
  | none => false

theorem addAll_append (rows : List Tuple) (tuple : Tuple) (s : KeySet) :
    s.addAll (rows ++ [tuple]) = (s.addAll rows).add tuple := by
  cases h : (tuple.cell s.place).key? <;> simp [addAll, add, h]

end KeySet

/-- The identities with those of a row, or the complaint that the row repeats one. -/
def enroll (tuple : Tuple) (sets : List KeySet) : Except SqlError (List KeySet) :=
  match sets.find? (·.isHit tuple) with
  | some s => .error (.duplicateKey s.column (tuple.cell s.place).display)
  | none => .ok (sets.map (·.add tuple))

/-- The identities with those of several rows, none of which may repeat one of a row before it. -/
def enrollAll (sets : List KeySet) : List Tuple → Except SqlError (List KeySet)
  | [] => .ok sets
  | tuple :: rows => do
    let sets ← enroll tuple sets
    enrollAll sets rows

theorem enroll_eq_ok {tuple : Tuple} {sets sets' : List KeySet} :
    enroll tuple sets = .ok sets' ↔
      (∀ s ∈ sets, s.isHit tuple = false) ∧ sets' = sets.map (·.add tuple) := by
  unfold enroll
  split
  · next s hs =>
    have hmem := List.mem_of_find?_eq_some hs
    have hit : s.isHit tuple = true := List.find?_some hs
    refine ⟨(nomatch ·), fun ⟨h, _⟩ => ?_⟩
    rw [h s hmem] at hit
    cases hit
  · next hnone =>
    have hmiss : ∀ s ∈ sets, s.isHit tuple = false := fun s hs => by
      simpa using List.find?_eq_none.1 hnone s hs
    rw [Except.ok.injEq]
    exact ⟨fun h => ⟨hmiss, h.symm⟩, fun h => h.2.symm⟩

namespace Schema

/-- A set without identities for each unique column. -/
def emptyKeySets (s : Schema) : List KeySet :=
  s.columns.zipIdx.filterMap fun (c, i) => if c.isUnique then some ⟨i, c.name, []⟩ else none

/-- The identities that some rows hold in the unique columns. -/
def keySets (s : Schema) (rows : List Tuple) : List KeySet :=
  s.emptyKeySets.map (·.addAll rows)

theorem keySets_nil (s : Schema) : s.keySets [] = s.emptyKeySets := by
  simp [keySets, KeySet.addAll]

theorem keySets_append (s : Schema) (rows : List Tuple) (tuple : Tuple) :
    s.keySets (rows ++ [tuple]) = (s.keySets rows).map (·.add tuple) := by
  simp [keySets, KeySet.addAll_append]

theorem mem_emptyKeySets {s : Schema} {k : KeySet} :
    k ∈ s.emptyKeySets ↔
      ∃ i c, s.columns[i]? = some c ∧ c.isUnique = true ∧ k = ⟨i, c.name, []⟩ := by
  simp only [emptyKeySets, List.mem_filterMap, Prod.exists, List.mk_mem_zipIdx_iff_getElem?]
  constructor
  · rintro ⟨c, i, hc, hk⟩
    split at hk
    · next hu => exact ⟨i, c, hc, hu, (Option.some.inj hk).symm⟩
    · cases hk
  · rintro ⟨i, c, hc, hu, rfl⟩
    exact ⟨c, i, hc, by simp [hu]⟩

/-- A row hits no set exactly if it repeats no identity of the rows in a unique column. -/
theorem isHit_keySets_eq_false_iff {s : Schema} {rows : List Tuple} {tuple : Tuple} :
    (∀ k ∈ s.keySets rows, k.isHit tuple = false) ↔
      ∀ i c, s.columns[i]? = some c → c.isUnique = true → ∀ old ∈ rows,
        ∀ key, (old.cell i).key? = some key → (tuple.cell i).key? ≠ some key := by
  simp only [keySets, List.forall_mem_map, mem_emptyKeySets]
  constructor
  · intro h i c hc hu old hold key hkey ht
    have := h _ ⟨i, c, hc, hu, rfl⟩
    simp only [KeySet.isHit, KeySet.addAll, ht, List.nil_append] at this
    simp only [List.contains_eq_mem, List.mem_filterMap, decide_eq_false_iff_not] at this
    exact this ⟨old, hold, hkey⟩
  · rintro h k ⟨i, c, hc, hu, rfl⟩
    simp only [KeySet.isHit, KeySet.addAll, List.nil_append]
    split
    · next key ht =>
      simp only [List.contains_eq_mem, List.mem_filterMap, decide_eq_false_iff_not]
      rintro ⟨old, hold, hkey⟩
      exact h i c hc hu old hold key hkey ht
    · rfl

end Schema

end PocketSql
