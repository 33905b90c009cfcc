/-
  Readers and the `;` tokens that they pass over.

  * `PassesBut hidden tokens rest`: between `tokens` and `rest` every `;` stands after tokens that
    hide it; `PassesBut.trans`: one part after another;
  * `Passes`: there is no `;` at all; `Clean`: a reader passes over none;
  * `readItems_clean`, `readList_clean`, `readParenthesized_clean`: lists of items are as clean as
    the reader of the items.
-/
import PocketSql.Proofs.Predicate.Tests

namespace PocketSql

/-- The rest follows tokens in which every `;` stands after tokens that hide it. -/
def PassesBut (hidden : List Token → Prop) (tokens rest : List Token) : Prop :=
  ∃ used, tokens = used ++ rest ∧ ∀ before t after, used = before ++ t :: after →
    t.kind = .sign .semicolon → hidden before

/-- The rest follows tokens without a `;`. -/
def Passes : List Token → List Token → Prop :=
  PassesBut fun _ => False

section
variable {hidden hidden' : List Token → Prop} {tokens mid rest : List Token} {t : Token}

theorem PassesBut.mono (h : PassesBut hidden tokens rest)
    (hmono : ∀ before, hidden before → hidden' before) : PassesBut hidden' tokens rest := by
  obtain ⟨used, htokens, hused⟩ := h
  exact ⟨used, htokens, fun before t after hsplit ht => hmono _ (hused before t after hsplit ht)⟩

/-- A second part is passed over, whatever the first one was. -/
theorem PassesBut.trans (h₁ : PassesBut hidden tokens mid)
    (h₂ : ∀ used, PassesBut (fun before => hidden (used ++ before)) mid rest) :
    PassesBut hidden tokens rest := by
  obtain ⟨used₁, rfl, hused₁⟩ := h₁
  obtain ⟨used₂, rfl, hused₂⟩ := h₂ used₁
  refine ⟨used₁ ++ used₂, (List.append_assoc ..).symm, fun before t after hsplit ht => ?_⟩
  rcases List.append_eq_append_iff.1 hsplit with ⟨middle, rfl, hmiddle⟩ | ⟨middle, hmiddle, htail⟩
  · exact hused₂ middle t after hmiddle ht
  · cases middle with
    | nil =>
      -- the first part ends right before the `;`
      rw [List.append_nil] at hmiddle
      subst hmiddle
      simpa using hused₂ [] t after (by simpa using htail.symm) ht
    | cons u middle =>
      obtain ⟨rfl, -⟩ := List.cons.inj htail
      exact hused₁ before t middle hmiddle ht

theorem PassesBut.cons (ht : t.kind ≠ .sign .semicolon)
    (h : PassesBut (fun before => hidden (t :: before)) tokens rest) :
    PassesBut hidden (t :: tokens) rest := by
  obtain ⟨used, rfl, hused⟩ := h
  refine ⟨t :: used, rfl, ?_⟩
  rintro (_ | ⟨first, before⟩) u after hsplit hu
  · obtain ⟨rfl, -⟩ := List.cons.inj hsplit
    exact absurd hu ht
  · obtain ⟨rfl, htail⟩ := List.cons.inj hsplit
    exact hused before u after htail hu

theorem Passes.but (h : Passes tokens rest) : PassesBut hidden tokens rest :=
  h.mono fun _ => False.elim

theorem Passes.refl (tokens : List Token) : Passes tokens tokens :=
  ⟨[], rfl, by simp⟩

theorem Passes.trans (h₁ : Passes tokens mid) (h₂ : Passes mid rest) : Passes tokens rest :=
  PassesBut.trans h₁ fun _ => h₂

theorem Passes.of_kinds {used : List Token} (h : .sign .semicolon ∉ kindsOf used) :
    Passes (used ++ rest) rest := by
  refine ⟨used, rfl, ?_⟩
  rintro before t after rfl ht
  exact h (by simp [ht])

theorem Passes.cons (h : t.kind ≠ .sign .semicolon) : Passes (t :: rest) rest :=
  show Passes ([t] ++ rest) rest from Passes.of_kinds (by simpa using h.symm)

/-! ## Single tokens -/

theorem accept?_passes {kind : TokenKind} (hkind : kind ≠ .sign .semicolon)
    (h : accept? kind tokens = some rest) : Passes tokens rest := by
  obtain ⟨place, rfl⟩ := accept?_eq_some.1 h
  exact Passes.cons hkind

theorem expect_eq_ok {kind : TokenKind} :
    expect kind tokens = .ok rest ↔ ∃ place, tokens = ⟨kind, place⟩ :: rest := by
  rw [← accept?_eq_some, expect]
  split
  · next after hafter => simp [hafter]
  · next hnone => simp [hnone]

theorem expect_passes {kind : TokenKind} (hkind : kind ≠ .sign .semicolon)
    (h : expect kind tokens = .ok rest) : Passes tokens rest := by
  obtain ⟨place, rfl⟩ := expect_eq_ok.1 h
  exact Passes.cons hkind

end

/-- A reader passes over no `;`. -/
def Clean {α : Type} (reader : Reader α) : Prop :=
  ∀ tokens x rest, reader tokens = .ok (x, rest) → Passes tokens rest

theorem readNameAs_clean (wanted : Wanted) : Clean (readNameAs wanted) := by
  intro tokens name rest h
  obtain ⟨place, rfl⟩ := readNameAs_eq_ok.1 h
  exact Passes.cons (by simp)

theorem readCountToken_clean : Clean readCountToken := by
  intro tokens n rest h
  unfold readCountToken at h
  split at h
  · split at h
    · cases h
      exact Passes.cons (by simp)
    · cases h
  · cases h

theorem SpellsColumn.clean {column : String} {kinds : List TokenKind}
    (h : SpellsColumn column kinds) : .sign .semicolon ∉ kinds := by
  cases h <;> simp

theorem SpellsLiteral.clean {v : Value} {kinds : List TokenKind} (h : SpellsLiteral kinds v) :
    .sign .semicolon ∉ kinds := by
  cases h <;> simp

theorem readColumnName_clean : Clean readColumnName := by
  intro tokens column rest h
  obtain ⟨used, rfl, hused⟩ := readColumnName_sound h
  exact Passes.of_kinds hused.clean

theorem readLiteral_clean : Clean readLiteral := by
  intro tokens v rest h
  obtain ⟨used, rfl, hused⟩ := readLiteral_sound h
  exact Passes.of_kinds hused.clean

/-! ## Lists -/

section
variable {α : Type} {item : Reader α}

theorem readItems_clean (hitem : Clean item) (more : Nat) : Clean (readItems item more) := by
  intro tokens xs rest h
  induction more generalizing tokens xs rest with
  | zero =>
    simp only [readItems, bind_eq_ok] at h
    obtain ⟨⟨x, after⟩, hx, h⟩ := h
    cases h
    exact hitem _ _ _ hx
  | succ more ih =>
    simp only [readItems, bind_eq_ok] at h
    obtain ⟨⟨x, after⟩, hx, h⟩ := h
    have hfirst : Passes tokens after := hitem _ _ _ hx
    dsimp only at h
    split at h
    · next after' hcomma =>
      obtain ⟨⟨xs', rest'⟩, hxs, h⟩ := bind_eq_ok.1 h
      cases h
      exact (hfirst.trans (accept?_passes (by simp) hcomma)).trans (ih _ _ _ hxs)
    · cases h
      exact hfirst

theorem readList_clean (hitem : Clean item) : Clean (readList item) :=
  fun tokens => readItems_clean hitem tokens.length tokens

theorem readParenthesized_clean (hitem : Clean item) : Clean (readParenthesized item) := by
  intro tokens xs rest h
  simp only [readParenthesized, bind_eq_ok] at h
  obtain ⟨after, hopen, ⟨xs', after'⟩, hlist, rest', hclose, h⟩ := h
  cases h
  exact ((expect_passes (by simp) hopen).trans (readList_clean hitem _ _ _ hlist)).trans
    (expect_passes (by simp) hclose)

end

end PocketSql
