/-
  UPDATE and DELETE keep a table valid.

  * `mergeFrom_replacements`, `writeAll_replacements`: the rows that are checked and the rows that
    are written are the same, namely each row that satisfies the condition after the assignments
    and every other row as it was;
  * `enrollAll_eq_ok_iff`: rows are taken in one after the other exactly if they are apart;
    `enrollAll_eq_error`: else the first one that is not apart is refused;
  * `Table.update_valid`, `Table.delete_valid`.
-/
import PocketSql.Proofs.Table.Insertion

namespace PocketSql

/-! ## Changes and their places -/

section
variable {p : Tuple → Bool} {f : Tuple → Tuple}

/-- The rows that satisfy a condition, changed and with their places, the first place being `i`. -/
def changesFrom (p : Tuple → Bool) (f : Tuple → Tuple) (i : Nat) (rows : List Tuple) :
    List (Nat × Tuple) :=
  (rows.zipIdx i).filterMap fun (tuple, i) => if p tuple then some (i, f tuple) else none

theorem changesFrom_cons (i : Nat) (tuple : Tuple) (rows : List Tuple) :
    changesFrom p f i (tuple :: rows) =
      if p tuple then (i, f tuple) :: changesFrom p f (i + 1) rows
      else changesFrom p f (i + 1) rows := by
  by_cases h : p tuple <;> simp [changesFrom, List.zipIdx_cons, h]

theorem le_of_mem_changesFrom {i : Nat} {rows : List Tuple} {change : Nat × Tuple}
    (h : change ∈ changesFrom p f i rows) : i ≤ change.1 := by
  induction rows generalizing i with
  | nil => simp [changesFrom] at h
  | cons tuple rows ih =>
    rw [changesFrom_cons] at h
    split at h
    · rcases List.mem_cons.1 h with rfl | h
      · exact Nat.le_refl _
      · exact Nat.le_of_succ_le (ih h)
    · exact Nat.le_of_succ_le (ih h)

theorem length_changesFrom (i : Nat) (rows : List Tuple) :
    (changesFrom p f i rows).length = rows.countP p := by
  induction rows generalizing i with
  | nil => rfl
  | cons tuple rows ih =>
    rw [changesFrom_cons]
    by_cases h : p tuple <;> simp [h, ih]

/-- A row whose place no change has stays. -/
theorem mergeFrom_of_lt {i : Nat} {changes : List (Nat × Tuple)} (h : ∀ c ∈ changes, i < c.1)
    (tuple : Tuple) (rows : List Tuple) :
    mergeFrom i changes (tuple :: rows) = tuple :: mergeFrom (i + 1) changes rows := by
  cases changes with
  | nil => simp [mergeFrom]
  | cons change changes =>
    have hne : change.1 ≠ i := Nat.ne_of_gt (h change (by simp))
    simp [mergeFrom, hne]

theorem mergeFrom_changesFrom (i : Nat) (rows : List Tuple) :
    mergeFrom i (changesFrom p f i rows) rows =
      rows.map fun tuple => if p tuple then f tuple else tuple := by
  induction rows generalizing i with
  | nil => rfl
  | cons tuple rows ih =>
    rw [changesFrom_cons]
    split
    · next h => simp [mergeFrom, h, ih]
    · next h =>
      rw [mergeFrom_of_lt fun c hc => le_of_mem_changesFrom hc, ih]
      simp [h]

theorem writeAll_cons (i : Nat) (new : Tuple) (changes : List (Nat × Tuple)) (rows : List Tuple) :
    writeAll ((i, new) :: changes) rows = writeAll changes (rows.set i new) := rfl

/-- The changes are written after rows of which there are as many as the first place says. -/
theorem writeAll_changesFrom (before rows : List Tuple) :
    writeAll (changesFrom p f before.length rows) (before ++ rows) =
      before ++ rows.map fun tuple => if p tuple then f tuple else tuple := by
  induction rows generalizing before with
  | nil => rfl
  | cons tuple rows ih =>
    have ih' := fun new => ih (before ++ [new])
    simp only [List.length_append, List.length_singleton, List.append_assoc,
      List.singleton_append] at ih'
    rw [changesFrom_cons]
    split
    · next h =>
      have hset : (before ++ tuple :: rows).set before.length (f tuple) =
          before ++ f tuple :: rows := by simp
      rw [writeAll_cons, hset, ih' (f tuple)]
      simp [h]
    · next h =>
      rw [ih' tuple]
      simp [h]

end

/-! ## Taking in rows -/

namespace Schema

variable {s : Schema}

theorem enrollAll_eq_ok_iff {old rows : List Tuple} (hold : old.Pairwise s.Apart) :
    (∃ sets, enrollAll (s.keySets old) rows = .ok sets) ↔ (old ++ rows).Pairwise s.Apart := by
  induction rows generalizing old with
  | nil => simp [enrollAll, hold]
  | cons tuple rows ih =>
    have hsplit : old ++ tuple :: rows = (old ++ [tuple]) ++ rows := by simp
    simp only [enrollAll, bind_eq_ok, enroll_keySets_eq_ok]
    constructor
    · rintro ⟨sets, _, ⟨hapart, rfl⟩, hrest⟩
      rw [hsplit, ← ih]
      · exact ⟨sets, hrest⟩
      · rw [List.pairwise_append]
        exact ⟨hold, List.pairwise_singleton _ _, by simpa using hapart⟩
    · intro h
      rw [hsplit] at h
      have hold' := (List.pairwise_append.1 h).1
      obtain ⟨sets, hsets⟩ := (ih hold').2 h
      exact ⟨sets, _, ⟨by simpa using (List.pairwise_append.1 hold').2.2, rfl⟩, hsets⟩

/-- Rows are not taken in because of the first one that repeats an identity of the rows before it. -/
theorem enrollAll_eq_error {old rows : List Tuple} {cause : SqlError}
    (h : enrollAll (s.keySets old) rows = .error cause) :
    ∃ before tuple after, rows = before ++ tuple :: after ∧
      enroll tuple (s.keySets (old ++ before)) = .error cause := by
  induction rows generalizing old with
  | nil => cases h
  | cons tuple rows ih =>
    rcases bind_eq_error.1 h with hfirst | ⟨sets, hfirst, hrest⟩
    · exact ⟨[], tuple, rows, rfl, by rwa [List.append_nil]⟩
    · obtain ⟨-, rfl⟩ := enroll_keySets_eq_ok.1 hfirst
      obtain ⟨before, found, after, rfl, hfound⟩ := ih hrest
      refine ⟨tuple :: before, found, after, rfl, ?_⟩
      rwa [List.append_assoc, List.singleton_append] at hfound

/-! ## Assignments -/

/-- Values assigned to places that a row may hold there. -/
def Assignable (s : Schema) (places : List (Nat × Value)) : Prop :=
  ∀ place ∈ places, ∀ c, s.columns[place.1]? = some c → place.2 = .null → c.nullable = true

theorem fits_set {tuple : Tuple} {i : Nat} {v : Value} (h : s.Fits tuple)
    (hv : ∀ c, s.columns[i]? = some c → v = .null → c.nullable = true) :
    s.Fits (tuple.set i v) := by
  refine ⟨by rw [List.length_set, h.length_eq], fun j c hc hnull => ?_⟩
  by_cases hij : i = j
  · subst hij
    obtain ⟨hi, -⟩ := List.getElem?_eq_some_iff.1 hc
    rw [← h.length_eq] at hi
    refine hv c hc ?_
    simpa [Tuple.cell, List.getD_eq_getElem?_getD, hi] using hnull
  · refine h.nullable j c hc ?_
    simpa [Tuple.cell, List.getD_eq_getElem?_getD, List.getElem?_set_ne hij] using hnull

theorem fits_assign {tuple : Tuple} {places : List (Nat × Value)} (h : s.Fits tuple)
    (hp : s.Assignable places) : s.Fits (tuple.assign places) := by
  induction places generalizing tuple with
  | nil => exact h
  | cons place places ih =>
    refine ih (fits_set h ?_) fun p hmem => hp p (List.mem_cons_of_mem _ hmem)
    exact hp place List.mem_cons_self

theorem require_eq_ok {name : String} {c : Column} (h : s.require name = .ok c) :
    ∃ i, s.position? name = some i ∧ s.columns[i]? = some c := by
  unfold require column? at h
  split at h
  · next d hd =>
    cases h
    rwa [List.find?_eq_bind_findIdx?_getElem?, Option.bind_eq_some_iff] at hd
  · cases h

theorem resolve_assignable {assignments : List (String × Value)} {places : List (Nat × Value)}
    (h : s.resolve assignments = .ok places) : s.Assignable places := by
  induction assignments generalizing places with
  | nil => cases h; exact fun _ hp => nomatch hp
  | cons a assignments ih =>
    simp only [resolve, bind_eq_ok] at h
    obtain ⟨c, hc, v, -, w, hw, rest, hrest, h⟩ := h
    cases h
    obtain ⟨i, hi, hcol⟩ := require_eq_ok hc
    obtain ⟨rfl, hnull⟩ := checkNull_eq_ok hw
    rintro place (_ | ⟨_, hplace⟩) d hd hv
    · simp only [hi, Option.getD_some] at hd
      rw [hcol] at hd
      cases hd
      exact hnull hv
    · exact ih hrest place hplace d hd hv

end Schema

namespace Table

variable {t t' : Table} {p : Row → Bool}

/-- The rows after an UPDATE that is not refused. -/
def assigned (t : Table) (p : Row → Bool) (places : List (Nat × Value)) : List Tuple :=
  t.rows.map fun tuple => if t.selects p tuple then tuple.assign places else tuple

theorem mergeFrom_replacements (t : Table) (p : Row → Bool) (places : List (Nat × Value)) :
    mergeFrom 0 (t.replacements p places) t.rows = t.assigned p places :=
  mergeFrom_changesFrom (p := t.selects p) (f := fun tuple => tuple.assign places) 0 t.rows

theorem writeAll_replacements (t : Table) (p : Row → Bool) (places : List (Nat × Value)) :
    writeAll (t.replacements p places) t.rows = t.assigned p places :=
  writeAll_changesFrom (p := t.selects p) (f := fun tuple => tuple.assign places) [] t.rows

theorem length_replacements (t : Table) (p : Row → Bool) (places : List (Nat × Value)) :
    (t.replacements p places).length = t.rows.countP (t.selects p) :=
  length_changesFrom (p := t.selects p) (f := fun tuple => tuple.assign places) 0 t.rows

/-- An UPDATE succeeds exactly if its assignments are allowed and the rows after it are apart. -/
theorem update_eq_ok {assignments : List (String × Value)} {n : Nat} :
    t.update p assignments = .ok (n, t') ↔
      ∃ places, t.schema.resolve assignments = .ok places ∧
        (t.assigned p places).Pairwise t.schema.Apart ∧
        n = t.rows.countP (t.selects p) ∧ t' = { t with rows := t.assigned p places } := by
  have hcheck : ∀ places,
      (∃ sets, enrollAll t.schema.emptyKeySets
          (mergeFrom 0 (t.replacements p places) t.rows) = .ok sets) ↔
        (t.assigned p places).Pairwise t.schema.Apart := by
    intro places
    rw [mergeFrom_replacements, ← Schema.keySets_nil, Schema.enrollAll_eq_ok_iff .nil,
      List.nil_append]
  simp only [update, bind_eq_ok, Except.ok.injEq, Prod.mk.injEq, length_replacements,
    writeAll_replacements]
  constructor
  · rintro ⟨places, hres, sets, hsets, rfl, rfl⟩
    exact ⟨places, hres, (hcheck places).1 ⟨sets, hsets⟩, rfl, rfl⟩
  · rintro ⟨places, hres, hpair, rfl, rfl⟩
    obtain ⟨sets, hsets⟩ := (hcheck places).2 hpair
    exact ⟨places, hres, sets, hsets, rfl, rfl⟩

theorem update_valid {assignments : List (String × Value)} {n : Nat}
    (h : t.update p assignments = .ok (n, t')) (hv : t.Valid) : t'.Valid := by
  obtain ⟨places, hres, hpair, -, rfl⟩ := update_eq_ok.1 h
  refine ⟨fun tuple htuple => ?_, hpair⟩
  obtain ⟨old, hold, rfl⟩ := List.mem_map.1 htuple
  split
  · exact Schema.fits_assign (hv.fits old hold) (Schema.resolve_assignable hres)
  · exact hv.fits old hold

theorem delete_fst (t : Table) (p : Row → Bool) : (t.delete p).1 = t.rows.countP (t.selects p) := by
  have hsplit := List.length_eq_countP_add_countP (t.selects p) (l := t.rows)
  simp only [Bool.not_eq_true, Bool.decide_eq_false] at hsplit
  simp only [delete, ← List.countP_eq_length_filter]
  omega

theorem delete_valid (p : Row → Bool) (hv : t.Valid) : (t.delete p).2.Valid :=
  ⟨fun tuple htuple => hv.fits tuple (List.mem_filter.1 htuple).1, hv.apart.filter _⟩

end Table

end PocketSql
