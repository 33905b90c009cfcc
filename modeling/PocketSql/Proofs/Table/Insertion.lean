/-
  New rows keep a table valid.

  * `complete_fits`: a completed row fits the columns;
  * `prepareRow_spec`: a prepared row is apart from the rows before it, and what is known after it
    is what is known of these rows and it;
  * `Table.insertRows_valid`: a batch of new rows keeps a valid table valid.
-/
import PocketSql.Error
import PocketSql.Store

namespace PocketSql

namespace Tuple

@[simp] theorem cell_cons_zero (v : Value) (rest : Tuple) : cell (v :: rest) 0 = v := rfl

@[simp] theorem cell_cons_succ (v : Value) (rest : Tuple) (i : Nat) :
    cell (v :: rest) (i + 1) = cell rest i := rfl

theorem cell_of_lt {tuple : Tuple} {i : Nat} (h : i < tuple.length) : tuple.cell i = tuple[i] := by
  simp [cell, h]

end Tuple

namespace Schema

variable {s : Schema} {instant : Timestamp} {clock : Nat → Timestamp} {highest : Int} {row : Row}
  {tuple : Tuple} {old : List Tuple}

/-! ## Completion -/

theorem checkNull_eq_ok {c : Column} {v w : Value} (h : checkNull c v = .ok w) :
    w = v ∧ (v = .null → c.nullable = true) := by
  unfold checkNull at h
  split at h
  · cases h
  · next hn =>
    cases h
    refine ⟨rfl, ?_⟩
    rintro rfl
    simpa [Value.isNull] using hn

theorem newCells_fit {columns : List Column}
    (h : newCells instant highest row columns = .ok tuple) :
    tuple.length = columns.length ∧
      ∀ i c, columns[i]? = some c → tuple.cell i = .null → c.nullable = true := by
  induction columns generalizing tuple with
  | nil => cases h; simp
  | cons c columns ih =>
    simp only [newCells, bind_eq_ok] at h
    obtain ⟨v, -, w, hw, rest, hrest, h⟩ := h
    cases h
    obtain ⟨rfl, hnull⟩ := checkNull_eq_ok hw
    obtain ⟨hlen, hfit⟩ := ih hrest
    refine ⟨by simp [hlen], ?_⟩
    rintro (_ | i) d hd hv
    · simp only [List.getElem?_cons_zero, Option.some.injEq] at hd
      subst hd
      exact hnull hv
    · exact hfit i d (by simpa using hd) hv

theorem complete_fits (h : s.complete instant highest row = .ok tuple) : s.Fits tuple := by
  simp only [complete, bind_eq_ok] at h
  obtain ⟨-, -, h⟩ := h
  obtain ⟨hlen, hnull⟩ := newCells_fit h
  exact ⟨hlen, hnull⟩

/-! ## Batches -/

/-- The identities of some rows take in exactly the rows that are apart from all of these. -/
theorem enroll_keySets_eq_ok {sets : List KeySet} :
    enroll tuple (s.keySets old) = .ok sets ↔
      (∀ a ∈ old, s.Apart a tuple) ∧ sets = s.keySets (old ++ [tuple]) := by
  have hhit : (∀ k ∈ s.keySets old, k.isHit tuple = false) ↔ ∀ a ∈ old, s.Apart a tuple := by
    rw [isHit_keySets_eq_false_iff]
    constructor
    · intro h a ha i c hc hu key hkey
      exact h i c hc hu a ha key hkey
    · intro h i c hc hu a ha key hkey
      exact h a ha i c hc hu key hkey
  rw [enroll_eq_ok, hhit, keySets_append]

/-- A row that is not taken in repeats in a unique column an identity of one of the rows; the
    complaint shows the column and what the row holds there. -/
theorem enroll_keySets_eq_error {cause : SqlError}
    (h : enroll tuple (s.keySets old) = .error cause) :
    ∃ i c other key, s.columns[i]? = some c ∧ c.isUnique = true ∧ other ∈ old ∧
      (other.cell i).key? = some key ∧ (tuple.cell i).key? = some key ∧
      cause = .duplicateKey c.name (tuple.cell i).display := by
  unfold enroll at h
  split at h
  · next k hk =>
    obtain ⟨empty, hempty, rfl⟩ := List.mem_map.1 (List.mem_of_find?_eq_some hk)
    obtain ⟨i, c, hc, hunique, rfl⟩ := mem_emptyKeySets.1 hempty
    have hhit := List.find?_some hk
    simp only [KeySet.isHit, KeySet.addAll, List.nil_append] at hhit
    split at hhit
    · next key hkey =>
      obtain ⟨other, hother, hotherKey⟩ := List.mem_filterMap.1 (List.contains_iff_mem.1 hhit)
      exact ⟨i, c, other, key, hc, hunique, hother, hotherKey, hkey, (Except.error.inj h).symm⟩
    · cases hhit
  · cases h

theorem ofRows_append (s : Schema) (old : List Tuple) (tuple : Tuple) :
    Batch.ofRows s (old ++ [tuple]) =
      ⟨s.raiseSerial (s.highestSerial old) tuple, s.keySets (old ++ [tuple])⟩ := by
  simp [Batch.ofRows, highestSerial]

theorem prepareRow_spec {batch : Batch}
    (h : s.prepareRow instant (.ofRows s old) row = .ok (tuple, batch)) :
    s.Fits tuple ∧ (∀ a ∈ old, s.Apart a tuple) ∧ batch = .ofRows s (old ++ [tuple]) := by
  simp only [prepareRow, bind_eq_ok] at h
  obtain ⟨completed, hcomplete, sets, hsets, h⟩ := h
  cases h
  obtain ⟨hapart, rfl⟩ := enroll_keySets_eq_ok.1 hsets
  exact ⟨complete_fits hcomplete, hapart, (ofRows_append s old tuple).symm⟩

/-- Along a batch, the rows before and the prepared rows stay apart. -/
theorem prepareRows_spec {rows : List Row} {tuples : List Tuple}
    (h : s.prepareRows clock (.ofRows s old) rows = .ok tuples) (hold : old.Pairwise s.Apart) :
    (∀ tuple ∈ tuples, s.Fits tuple) ∧ (old ++ tuples).Pairwise s.Apart := by
  induction rows generalizing clock old tuples with
  | nil => cases h; simpa using hold
  | cons row rows ih =>
    simp only [prepareRows, bind_eq_ok] at h
    obtain ⟨⟨tuple, batch⟩, hrow, rest, hrest, h⟩ := h
    cases h
    obtain ⟨hfits, hapart, rfl⟩ := prepareRow_spec hrow
    have hold' : (old ++ [tuple]).Pairwise s.Apart := by
      rw [List.pairwise_append]
      exact ⟨hold, List.pairwise_singleton _ _, by simpa using hapart⟩
    obtain ⟨hfit, hpair⟩ := ih hrest hold'
    refine ⟨?_, by simpa using hpair⟩
    rintro t (_ | ⟨_, ht⟩)
    · exact hfits
    · exact hfit t ht

end Schema

namespace Table

variable {t t' : Table} {clock : Nat → Timestamp} {rows : List Row} {tuples : List Tuple}

theorem insertRows_eq_ok :
    t.insertRows clock rows = .ok (tuples, t') ↔
      t.schema.prepareRows clock (.ofRows t.schema t.rows) rows = .ok tuples ∧
        t' = { t with rows := t.rows ++ tuples } := by
  simp only [insertRows, bind_eq_ok, Except.ok.injEq, Prod.mk.injEq]
  constructor
  · rintro ⟨_, h, rfl, rfl⟩; exact ⟨h, rfl⟩
  · rintro ⟨h, rfl⟩; exact ⟨tuples, h, rfl, rfl⟩

theorem insertRows_valid (h : t.insertRows clock rows = .ok (tuples, t')) (hv : t.Valid) :
    t'.Valid := by
  obtain ⟨hprep, rfl⟩ := insertRows_eq_ok.1 h
  obtain ⟨hfits, hpair⟩ := Schema.prepareRows_spec hprep hv.apart
  refine ⟨fun tuple htuple => ?_, hpair⟩
  rcases List.mem_append.1 htuple with hold | hnew
  · exact hv.fits tuple hold
  · exact hfits tuple hnew

end Table

end PocketSql
