/-
  WHERE clauses, against the grammar.

  * `CutsAt`: where a part of a token list stops; `splitOutside_cutsAt`: the reader cuts there;
  * `readClause?_eq_some_iff`: exactly the clauses that the grammar spells within the limits are
    understood;
  * `readWhere_spec`: what a WHERE clause is read as.
-/
import PocketSql.Proofs.Predicate.Reading

namespace PocketSql

/-! ## Where a clause ends -/

/-- How many parentheses are open after some tokens. -/
def openAfter (depth : Nat) (tokens : List Token) : Nat :=
  tokens.foldl (fun depth t => depthAfter depth t.kind) depth

/-- Tokens are cut before the first one outside of parentheses at which a part stops, if there is
    one. -/
structure CutsAt (stops : TokenKind → Bool) (depth : Nat) (tokens part rest : List Token) :
    Prop where
  append : part ++ rest = tokens
  inside : ∀ before t after, part = before ++ t :: after → stops t.kind = true →
    openAfter depth before ≠ 0
  outside : ∀ t after, rest = t :: after → stops t.kind = true ∧ openAfter depth part = 0

theorem splitOutside_cutsAt (stops : TokenKind → Bool) (depth : Nat) (tokens : List Token) :
    CutsAt stops depth tokens (splitOutside stops depth tokens).1
      (splitOutside stops depth tokens).2 := by
  induction tokens generalizing depth with
  | nil => exact ⟨rfl, by simp [splitOutside], by simp [splitOutside]⟩
  | cons t tokens ih =>
    unfold splitOutside
    split
    · next hstop =>
      simp only [Bool.and_eq_true, decide_eq_true_eq] at hstop
      refine ⟨rfl, by simp, ?_⟩
      rintro u after ⟨⟩
      exact ⟨hstop.2, hstop.1⟩
    · next hgo =>
      obtain ⟨happend, hinside, houtside⟩ := ih (depthAfter depth t.kind)
      refine ⟨by rw [List.cons_append, happend], ?_, houtside⟩
      rintro (_ | ⟨b, before⟩) u after hpart hstop
      · obtain ⟨rfl, -⟩ := List.cons.inj hpart
        intro hzero
        have hdepth : depth = 0 := hzero
        exact hgo (by simp [hdepth, hstop])
      · obtain ⟨rfl, htail⟩ := List.cons.inj hpart
        exact hinside before u after htail hstop

/-! ## What a clause is read as -/

theorem readCondition_sound : Sound .alternatives maxNesting readCondition :=
  readAlternatives_sound (readOperand_sound maxNesting)

theorem readClause?_eq_some_iff {clause : List Token} {p : Predicate} :
    readClause? clause = some p ↔ SpellsClause (kindsOf clause) p := by
  unfold readClause?
  constructor
  · intro h
    split at h
    · next q left hq =>
      cases h
      obtain ⟨used, n, d, hused, hd, htests, hroom⟩ := readCondition_sound _ _ _ hq
      rw [List.append_nil] at hused
      subst hused
      dsimp only at htests
      exact ⟨n, d, hd, by omega, hroom⟩
    · cases h
  · rintro ⟨n, d, hd, htests, hroom⟩
    rw [readCondition, readAlternatives_eq hd, if_pos ⟨htests, hroom⟩]

theorem clausePredicate_of_spells {clause : List Token} {p : Predicate}
    (h : SpellsClause (kindsOf clause) p) : clausePredicate clause = p := by
  rw [clausePredicate, readClause?_eq_some_iff.2 h, Option.getD_some]

theorem clausePredicate_of_not_spells {clause : List Token}
    (h : ∀ p, ¬ SpellsClause (kindsOf clause) p) :
    clausePredicate clause = .unsupported (String.ofList (renderTokens (kindsOf clause))) := by
  have hnone : readClause? clause = none :=
    Option.eq_none_iff_forall_ne_some.2 fun p hp => h p (readClause?_eq_some_iff.1 hp)
  rw [clausePredicate, hnone, Option.getD_none]

/-- **WHERE clauses are those of the grammar.**  The tokens after WHERE are cut at the first stop
    outside of parentheses.  If the tokens of the clause spell a condition of the grammar within the
    limits, the clause is read as this condition, and no other one is spelled; in every other case
    it is kept as text. -/
theorem readWhere_spec (place : Position) (tokens : List Token) :
    ∃ clause rest p, CutsAt endsClause 0 tokens clause rest ∧
      readWhere (⟨.keyword .where_, place⟩ :: tokens) = (some p, rest) ∧
      (∀ q, SpellsClause (kindsOf clause) q → p = q) ∧
      ((∀ q, ¬ SpellsClause (kindsOf clause) q) →
        p = .unsupported (String.ofList (renderTokens (kindsOf clause)))) ∧
      ∀ q₁ q₂ n₁ n₂ d₁ d₂, Derives .alternatives (kindsOf clause) q₁ n₁ d₁ →
        Derives .alternatives (kindsOf clause) q₂ n₂ d₂ → q₁ = q₂ ∧ n₁ = n₂ ∧ d₁ = d₂ := by
  refine ⟨_, _, clausePredicate (splitOutside endsClause 0 tokens).1,
    splitOutside_cutsAt endsClause 0 tokens, rfl, ?_, ?_, ?_⟩
  · intro q hq
    exact clausePredicate_of_spells hq
  · intro hnone
    exact clausePredicate_of_not_spells hnone
  · intro q₁ q₂ n₁ n₂ d₁ d₂ h₁ h₂
    exact h₁.unique h₂

end PocketSql
