/-
  What the constraints in the clause of a column make of it.

  * `NothingNew`, `Local`: a reader does not look past what it takes, but to tell that a token is
    not there; `readColumnType_local`, `readConstraint_local`: so the readers of types and of
    constraints;
  * `Builds`: what is made of a column from one place of its clause to another; `Builds.toEnd`: in
    one way; `Builds.replaced`: whatever follows the second place;
  * `readConstraintsIn_eq_ok`, `readColumn_eq_ok`: from the first constraint to the end of the
    clause.
-/
import PocketSql.Proofs.Statement.TableRoundTrip
import PocketSql.Proofs.Token.Settling

namespace PocketSql

/-! ## Readers and what follows -/

/-- Tokens begin with a name, or as others begin, or there are none. -/
def NothingNew (rest others : List Token) : Prop :=
  ∀ t ∈ others.head?, (∃ word, t.kind = .name word) ∨ ∃ u ∈ rest.head?, u.kind = t.kind

section
variable {rest others : List Token}

theorem NothingNew.append (h : NothingNew rest others) (lead : List Token) :
    NothingNew (lead ++ rest) (lead ++ others) := by
  cases lead with
  | nil => exact h
  | cons u lead =>
    rintro _ ⟨⟩
    exact .inr ⟨u, rfl, rfl⟩

theorem NothingNew.noNext (h : NothingNew rest others) {kind : TokenKind}
    (hkind : ∀ word, kind ≠ .name word) (hrest : accept? kind rest = none) :
    accept? kind others = none := by
  cases others with
  | nil => rfl
  | cons t others =>
    refine accept?_of_ne ?_ t.place others
    rintro rfl
    rcases h t rfl with ⟨word, hname⟩ | ⟨u, hu, hkind⟩
    · exact hkind word hname
    · cases rest with
      | nil => cases hu
      | cons v rest =>
        cases hu
        simp [accept?, hkind] at hrest

end

/-- What a reader takes of some tokens, it takes before all others with nothing new next. -/
def Local {α : Type} (read : Reader α) : Prop :=
  ∀ tokens x rest, read tokens = .ok (x, rest) →
    ∃ used, tokens = used ++ rest ∧
      ∀ others, NothingNew rest others → read (used ++ others) = .ok (x, others)

theorem readTypeArgs_local : Local readTypeArgs := by
  intro tokens args rest h
  unfold readTypeArgs at h
  split at h
  · next hopen =>
    obtain ⟨used, rfl, htakes⟩ := readParenthesized_settles readCountToken_settles _ _ _ h
    refine ⟨used, rfl, fun others _ => ?_⟩
    have hread := htakes used others rfl trivial
    rw [readTypeArgs, if_pos (opens_of_readParenthesized hread), hread]
  · next hopen =>
    cases h
    rw [Bool.not_eq_true, Option.isSome_eq_false_iff, Option.isNone_iff_eq_none] at hopen
    refine ⟨[], rfl, fun others hothers => ?_⟩
    rw [List.nil_append, readTypeArgs, hothers.noNext (by simp) hopen]
    rfl

/-- The first of some tokens is no name. -/
def NoName (tokens : List Token) : Prop :=
  ∀ t ∈ tokens.head?, ∀ word, t.kind ≠ .name word

theorem readColumnType_of_noName {tokens : List Token} (h : NoName tokens) :
    readColumnType tokens = .ok (.text, tokens) := by
  rcases tokens with _ | ⟨⟨kind, place⟩, rest⟩
  · rfl
  · cases kind with
    | name word => exact absurd rfl (h _ rfl word)
    | _ => rfl

/-- A column has no type if no name follows that could be one. -/
theorem readColumnType_local {tokens rest : List Token} {type : ColumnType}
    (h : readColumnType tokens = .ok (type, rest)) :
    ∃ used, tokens = used ++ rest ∧ (used = [] → NoName rest) ∧
      ∀ others, NothingNew rest others → (used = [] → NoName others) →
        readColumnType (used ++ others) = .ok (type, others) := by
  unfold readColumnType at h
  split at h
  · next word place tokens =>
    obtain ⟨⟨args, after⟩, hargs, h⟩ := bind_eq_ok.1 h
    cases h
    obtain ⟨used, rfl, hused⟩ := readTypeArgs_local _ _ _ hargs
    refine ⟨⟨.name word, place⟩ :: used, rfl, nofun, fun others hothers _ => ?_⟩
    exact bind_eq_ok.2 ⟨_, hused others hothers, rfl⟩
  · next hname =>
    cases h
    refine ⟨[], rfl, fun _ => ?_, fun others _ hothers => ?_⟩
    · intro t ht word hkind
      cases tokens with
      | nil => cases ht
      | cons u tokens =>
        cases ht
        exact hname word t.place tokens (by rw [← hkind])
    · exact readColumnType_of_noName (hothers rfl)

theorem readReference_local : Local readReference := by
  intro tokens r rest h
  simp only [readReference, bind_eq_ok] at h
  obtain ⟨⟨table, after⟩, htable, h⟩ := h
  obtain ⟨place, rfl⟩ := readName_eq_ok.1 htable
  dsimp only at h
  split at h
  · next hopen =>
    cases h
    refine ⟨[⟨.name table, place⟩], rfl, fun others hothers => ?_⟩
    refine bind_eq_ok.2 ⟨(table, others), readName_eq_ok.2 ⟨place, rfl⟩, ?_⟩
    simp only [hothers.noNext (by simp) hopen]
  · next after' hopen =>
    obtain ⟨openPlace, rfl⟩ := accept?_eq_some.1 hopen
    simp only [bind_eq_ok] at h
    obtain ⟨⟨column, left⟩, hcolumn, left', hclose, h⟩ := h
    cases h
    obtain ⟨columnPlace, rfl⟩ := readName_eq_ok.1 hcolumn
    obtain ⟨closePlace, rfl⟩ := expect_eq_ok.1 hclose
    exact ⟨[⟨.name table, place⟩, ⟨.sign .leftParen, openPlace⟩, ⟨.name column, columnPlace⟩,
      ⟨.sign .rightParen, closePlace⟩], rfl, fun others _ => rfl⟩

theorem readDefault_local (c : Column) : Local (readDefault c) := by
  intro tokens d rest h
  have hliteral : readLiteralDefault c tokens = .ok (d, rest) →
      ∃ used, tokens = used ++ rest ∧
        ∀ others, NothingNew rest others → readDefault c (used ++ others) = .ok (d, others) := by
    intro h
    simp only [readLiteralDefault, bind_eq_ok] at h
    obtain ⟨⟨v, after⟩, hv, h⟩ := h
    split at h
    · next w hw =>
      cases h
      obtain ⟨used, rfl, hused⟩ := readLiteral_sound hv
      exact ⟨used, rfl, fun others _ => readDefault_literal hused hw others⟩
    · cases h
  unfold readDefault at h
  split at h
  · next word place tokens =>
    split at h
    · next hnow =>
      obtain ⟨after, hparens, h⟩ := bind_eq_ok.1 h
      cases h
      unfold skipEmptyParens at hparens
      split at hparens
      · next after hopen =>
        obtain ⟨openPlace, rfl⟩ := accept?_eq_some.1 hopen
        obtain ⟨closePlace, rfl⟩ := expect_eq_ok.1 hparens
        refine ⟨[⟨.name word, place⟩, ⟨.sign .leftParen, openPlace⟩,
          ⟨.sign .rightParen, closePlace⟩], rfl, fun others _ => ?_⟩
        simp only [List.cons_append, readDefault, if_pos hnow]
        rfl
      · next hopen =>
        cases hparens
        refine ⟨[⟨.name word, place⟩], rfl, fun others hothers => ?_⟩
        simp only [List.cons_append, List.nil_append, readDefault, if_pos hnow, skipEmptyParens,
          hothers.noNext (by simp) hopen]
        rfl
    · exact hliteral h
  · exact hliteral h

theorem readConstraint_local (c : Column) (kind : TokenKind) : Local (readConstraint c kind) := by
  intro tokens c' rest h
  unfold readConstraint at h
  split at h
  · split at h
    · next after hkey =>
      cases h
      obtain ⟨place, rfl⟩ := accept?_eq_some.1 hkey
      exact ⟨[⟨.keyword .key, place⟩], rfl, fun others _ => rfl⟩
    · next hkey =>
      cases h
      refine ⟨[], rfl, fun others hothers => ?_⟩
      simp only [List.nil_append, readConstraint, hothers.noNext (by simp) hkey]
  · split at h
    · next after hnull =>
      cases h
      obtain ⟨place, rfl⟩ := accept?_eq_some.1 hnull
      exact ⟨[⟨.keyword .null, place⟩], rfl, fun others _ => rfl⟩
    · next hnull =>
      cases h
      refine ⟨[], rfl, fun others hothers => ?_⟩
      simp only [List.nil_append, readConstraint, hothers.noNext (by simp) hnull]
  · cases h
    exact ⟨[], rfl, fun others _ => rfl⟩
  · obtain ⟨⟨d, after⟩, hd, h⟩ := bind_eq_ok.1 h
    cases h
    obtain ⟨used, rfl, hused⟩ := readDefault_local c _ _ _ hd
    exact ⟨used, rfl, fun others hothers => bind_eq_ok.2 ⟨_, hused others hothers, rfl⟩⟩
  · obtain ⟨⟨r, after⟩, hr, h⟩ := bind_eq_ok.1 h
    cases h
    obtain ⟨used, rfl, hused⟩ := readReference_local _ _ _ hr
    exact ⟨used, rfl, fun others hothers => bind_eq_ok.2 ⟨_, hused others hothers, rfl⟩⟩
  · next hprimary hnot hunique hdefault hreferences =>
    cases h
    refine ⟨[], rfl, fun others _ => ?_⟩
    unfold readConstraint
    split <;> first | rfl | contradiction

/-! ## The constraints of a column -/

/-- The constraints between two places of a clause make one column of another. -/
inductive Builds : Column → List Token → Column → List Token → Prop
  | refl (c : Column) (tokens : List Token) : Builds c tokens c tokens
  | step {c c₁ c' : Column} {t : Token} {rest left after : List Token}
      (hfirst : readConstraint c t.kind rest = .ok (c₁, left)) (hothers : Builds c₁ left c' after) :
      Builds c (t :: rest) c' after

namespace Builds

variable {c c₁ c' : Column} {tokens mid after : List Token}

theorem trans (h : Builds c tokens c₁ mid) (h' : Builds c₁ mid c' after) :
    Builds c tokens c' after := by
  induction h with
  | refl => exact h'
  | step hfirst _ ih => exact .step hfirst (ih h')

/-- From every place that is passed the reading goes on to the end in one way. -/
theorem toEnd (h : Builds c tokens c₁ mid) (hend : Builds c tokens c' []) : Builds c₁ mid c' [] := by
  induction h with
  | refl => exact hend
  | step hfirst _ ih =>
    cases hend with
    | step hfirst' hothers =>
      cases Except.ok.inj (hfirst.symm.trans hfirst')
      exact ih hothers

/-- Up to a place a clause is read in the same way before all others with nothing new next. -/
theorem replaced (h : Builds c tokens c' after) :
    ∃ before, tokens = before ++ after ∧
      ∀ others, NothingNew after others → Builds c (before ++ others) c' others := by
  induction h with
  | refl c tokens => exact ⟨[], rfl, fun others _ => .refl c others⟩
  | @step c c₁ c' t rest left after hfirst _ ih =>
    obtain ⟨used, rfl, hused⟩ := readConstraint_local c t.kind _ _ _ hfirst
    obtain ⟨before, rfl, hbefore⟩ := ih
    refine ⟨t :: (used ++ before), by simp, fun others hothers => ?_⟩
    rw [List.cons_append, List.append_assoc]
    exact .step (hused _ (hothers.append before)) (hbefore others hothers)

end Builds

theorem readConstraintsIn_eq_ok {c c' : Column} {steps : Nat} {tokens : List Token}
    (hsteps : tokens.length ≤ steps) :
    readConstraintsIn c steps tokens = .ok c' ↔ Builds c tokens c' [] := by
  induction steps generalizing c tokens with
  | zero =>
    obtain rfl : tokens = [] := List.length_eq_zero_iff.1 (Nat.le_zero.1 hsteps)
    exact ⟨fun h => Except.ok.inj h ▸ .refl c [], fun h => by cases h; rfl⟩
  | succ steps ih =>
    cases tokens with
    | nil =>
      exact ⟨fun h => Except.ok.inj h ▸ .refl c [], fun h => by cases h; rfl⟩
    | cons t rest =>
      -- what is left after a constraint is no longer than what stood after its first token
      have hleft : ∀ c₁ left, readConstraint c t.kind rest = .ok (c₁, left) →
          left.length ≤ steps := by
        intro c₁ left h
        obtain ⟨used, rfl, -⟩ := readConstraint_local c t.kind _ _ _ h
        simp only [List.length_cons, List.length_append] at hsteps
        omega
      rw [readConstraintsIn, bind_eq_ok]
      constructor
      · rintro ⟨⟨c₁, left⟩, hfirst, hothers⟩
        exact .step hfirst ((ih (hleft c₁ left hfirst)).1 hothers)
      · intro h
        cases h with
        | step hfirst hothers => exact ⟨_, hfirst, (ih (hleft _ _ hfirst)).2 hothers⟩

/-- After its name and its type a column is what its constraints make. -/
theorem readColumn_eq_ok {c : Column} {tokens rest left : List Token} {name : String}
    {type : ColumnType} (hname : readName tokens = .ok (name, rest))
    (htype : readColumnType rest = .ok (type, left)) :
    readColumn tokens = .ok c ↔ Builds (.ofName name type) left c [] := by
  rw [← readConstraintsIn_eq_ok (Nat.le_refl _)]
  simp only [readColumn, hname, htype, bind, Except.bind, readConstraints]

end PocketSql
