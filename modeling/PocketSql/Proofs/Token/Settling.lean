/-
  What a reader takes does not depend on what stands after it.

  * `Settles`: the tokens that a reader takes are taken in the same way before all tokens that may
    follow them;
  * `readLiteral_settles`, `readColumnName_settles`: single values;
  * `readItems_settles`, `readList_settles`, `readParenthesized_settles`: lists of items.
-/
import PocketSql.Proofs.Token.Writing

namespace PocketSql

/-- What a reader takes of some tokens, it takes of the same kinds of tokens before all that may
    follow. -/
def Settles {α : Type} (follows : List Token → Prop) (read : Reader α) : Prop :=
  ∀ tokens x rest, read tokens = .ok (x, rest) →
    ∃ used, tokens = used ++ rest ∧ Takes follows read (kindsOf used) x

/-! ## Single values -/

theorem readCountToken_settles : Settles anything readCountToken := by
  intro tokens n rest h
  unfold readCountToken at h
  split at h
  · next digits place others =>
    split at h
    · next m hcount =>
      cases h
      refine ⟨[⟨.number digits, place⟩], rfl, fun tokens others' hkinds _ => ?_⟩
      obtain ⟨place', rfl⟩ := kindsOf_eq_singleton hkinds
      simp only [List.singleton_append, readCountToken, hcount]
    · cases h
  · cases h

theorem readColumnName_settles : Settles (noNext (.sign .dot)) readColumnName := by
  intro tokens column rest h
  obtain ⟨used, rfl, hused⟩ := readColumnName_sound h
  exact ⟨used, rfl, fun tokens others hkinds hothers =>
    readColumnName_spells (hkinds ▸ hused) hothers⟩

theorem readLiteral_settles : Settles anything readLiteral := by
  intro tokens v rest h
  obtain ⟨used, rfl, hused⟩ := readLiteral_sound h
  exact ⟨used, rfl, fun tokens others hkinds _ => readLiteral_spells (hkinds ▸ hused)⟩

/-! ## Lists -/

section
variable {α : Type} {item : Reader α}

/-- The items are read again if there may be as many as there are tokens. -/
theorem readItems_settles (hitem : Settles anything item) {more : Nat} {tokens rest : List Token}
    {xs : List α} (h : readItems item more tokens = .ok (xs, rest)) :
    ∃ used, tokens = used ++ rest ∧ ∀ more', (kindsOf used).length ≤ more' →
      Takes (noNext (.sign .comma)) (readItems item more') (kindsOf used) xs := by
  induction more generalizing tokens xs with
  | zero =>
    simp only [readItems, bind_eq_ok] at h
    obtain ⟨⟨x, after⟩, hx, h⟩ := h
    cases h
    obtain ⟨used, rfl, htakes⟩ := hitem _ _ _ hx
    exact ⟨used, rfl, fun more' _ => takes_items_single htakes more'⟩
  | succ more ih =>
    simp only [readItems, bind_eq_ok] at h
    obtain ⟨⟨x, after⟩, hx, h⟩ := h
    obtain ⟨first, rfl, htakes⟩ := hitem _ _ _ hx
    dsimp only at h
    split at h
    · next after' hcomma =>
      obtain ⟨place, rfl⟩ := accept?_eq_some.1 hcomma
      obtain ⟨⟨xs', rest'⟩, hxs, h⟩ := bind_eq_ok.1 h
      cases h
      obtain ⟨others, rfl, hothers⟩ := ih hxs
      refine ⟨first ++ ⟨.sign .comma, place⟩ :: others, by simp, ?_⟩
      rw [kindsOf_append]
      exact takes_items_cons htakes hothers
    · cases h
      exact ⟨first, rfl, fun more' _ => takes_items_single htakes more'⟩

theorem readList_settles (hitem : Settles anything item) :
    Settles (noNext (.sign .comma)) (readList item) := by
  intro tokens xs rest h
  obtain ⟨used, rfl, htakes⟩ := readItems_settles hitem h
  exact ⟨used, rfl, takes_list htakes⟩

theorem readParenthesized_settles (hitem : Settles anything item) :
    Settles anything (readParenthesized item) := by
  intro tokens xs rest h
  simp only [readParenthesized, bind_eq_ok] at h
  obtain ⟨after, hopen, ⟨xs', after'⟩, hlist, rest', hclose, h⟩ := h
  cases h
  obtain ⟨place, rfl⟩ := expect_eq_ok.1 hopen
  obtain ⟨used, rfl, htakes⟩ := readList_settles hitem _ _ _ hlist
  obtain ⟨closePlace, rfl⟩ := expect_eq_ok.1 hclose
  refine ⟨⟨.sign .leftParen, place⟩ :: (used ++ [⟨.sign .rightParen, closePlace⟩]), by simp, ?_⟩
  simpa [kindsOf] using takes_parenthesized htakes

end

end PocketSql
