/-
  The reader of conditions, against the grammar.

  * `readOperand_sound`, `readAlternatives_sound`: what is read is a condition of the grammar, at
    the start of the tokens and within the limits;
  * `Derives.reads`: a condition of the grammar is read if it is within the limits, and nothing is
    read if it is not, whatever tokens follow that cannot extend it;
  * `Derives.unique`: the tokens of a condition determine it, with its tests and its nesting.
-/
import PocketSql.Proofs.Predicate.Tests

namespace PocketSql

/-! ## Operands joined by a connective -/

/-- A level of the grammar is built of operands of another one, joined by a connective. -/
structure Joins (connective : Keyword) (join : Predicate → Predicate → Predicate)
    (level inner : GrammarLevel) : Prop where
  single {ks p n d} : Derives inner ks p n d → Derives level ks p n d
  joined {ks₁ ks₂ p₁ p₂ n₁ n₂ d₁ d₂} : Derives level ks₁ p₁ n₁ d₁ → Derives inner ks₂ p₂ n₂ d₂ →
    Derives level (ks₁ ++ .keyword connective :: ks₂) (join p₁ p₂) (n₁ + n₂) (max d₁ d₂)

theorem joins_or : Joins .or .or .alternatives .conjunction := ⟨.conjunction, .or⟩

theorem joins_and : Joins .and .and .conjunction .operand := ⟨.operand, .and⟩

/-- All that a reader finds is of a level of the grammar. -/
def Sound (level : GrammarLevel) (room : Nat) (reader : ConditionReader) : Prop :=
  ∀ tests tokens c, reader tests tokens = some c → FindsIn level room tests tokens c

section
variable {connective : Keyword} {join : Predicate → Predicate → Predicate}
  {level inner : GrammarLevel} {operand : ConditionReader} {room tests : Nat}
  {tokens rest : List Token} {left right c : Condition}

/-! ## What is read -/

theorem FindsIn.single (hj : Joins connective join level inner)
    (h : FindsIn inner room tests tokens c) : FindsIn level room tests tokens c := by
  obtain ⟨used, n, d, htokens, hd, htests, hroom⟩ := h
  exact ⟨used, n, d, htokens, hj.single hd, htests, hroom⟩

/-- One more operand. -/
theorem FindsIn.joined (hj : Joins connective join level inner)
    (hleft : FindsIn level room tests tokens left)
    (hconnective : accept? (.keyword connective) left.rest = some rest)
    (hright : FindsIn inner room left.tests rest right) :
    FindsIn level room tests tokens
      ⟨join left.predicate right.predicate, right.tests, right.rest⟩ := by
  obtain ⟨used₁, n₁, d₁, rfl, hd₁, htests₁, hroom₁⟩ := hleft
  obtain ⟨used₂, n₂, d₂, rfl, hd₂, htests₂, hroom₂⟩ := hright
  obtain ⟨place, hrest⟩ := accept?_eq_some.1 hconnective
  refine ⟨used₁ ++ ⟨.keyword connective, place⟩ :: used₂, n₁ + n₂, max d₁ d₂, ?_, ?_, ?_, ?_⟩
  · simp [hrest]
  · rw [kindsOf_append]
    exact hj.joined hd₁ hd₂
  · dsimp only
    omega
  · exact Nat.max_le.2 ⟨hroom₁, hroom₂⟩

theorem readOperands_sound (hj : Joins connective join level inner)
    (hop : Sound inner room operand) {more : Nat} (hleft : FindsIn level room tests tokens left)
    (h : readOperands connective join operand more left = some c) :
    FindsIn level room tests tokens c := by
  induction more generalizing left with
  | zero =>
    unfold readOperands at h
    split at h
    · cases h
    · cases h
      exact hleft
  | succ more ih =>
    unfold readOperands at h
    split at h
    · cases h
      exact hleft
    · next rest hconnective =>
      simp only [Option.bind_eq_bind, Option.bind_eq_some_iff] at h
      obtain ⟨right, hright, h⟩ := h
      exact ih (hleft.joined hj hconnective (hop _ _ _ hright)) h

theorem readChain_sound (hj : Joins connective join level inner) (hop : Sound inner room operand) :
    Sound level room (readChain connective join operand) := by
  intro tests tokens c h
  simp only [readChain, Option.bind_eq_bind, Option.bind_eq_some_iff] at h
  obtain ⟨first, hfirst, h⟩ := h
  exact readOperands_sound hj hop ((hop _ _ _ hfirst).single hj) h

theorem readAlternatives_sound (hop : Sound .operand room operand) :
    Sound .alternatives room (readAlternatives operand) :=
  readChain_sound joins_or (readChain_sound joins_and hop)

end

theorem readOperand_sound (room : Nat) : Sound .operand room (readOperand room) := by
  induction room with
  | zero =>
    intro tests tokens c h
    unfold readOperand at h
    split at h
    · cases h
    · exact readTest_sound h 0
  | succ room ih =>
    intro tests tokens c h
    unfold readOperand at h
    split at h
    · next rest hnot =>
      simp only [Option.bind_eq_bind, Option.bind_eq_some_iff, Option.some.injEq] at h
      obtain ⟨inner, hinner, rfl⟩ := h
      obtain ⟨place, rfl⟩ := accept?_eq_some.1 hnot
      obtain ⟨used, n, d, rfl, hd, htests, hroom⟩ := ih _ _ _ hinner
      exact ⟨⟨_, place⟩ :: used, n, d + 1, rfl, .not hd, htests, Nat.succ_le_succ hroom⟩
    · split at h
      · next rest hopen =>
        simp only [Option.bind_eq_bind, Option.bind_eq_some_iff, Option.some.injEq] at h
        obtain ⟨inner, hinner, after, hclose, rfl⟩ := h
        obtain ⟨place, rfl⟩ := accept?_eq_some.1 hopen
        obtain ⟨closePlace, hafter⟩ := accept?_eq_some.1 hclose
        obtain ⟨used, n, d, rfl, hd, htests, hroom⟩ := readAlternatives_sound ih _ _ _ hinner
        refine ⟨⟨.sign .leftParen, place⟩ :: (used ++ [⟨.sign .rightParen, closePlace⟩]), n, d + 1,
          ?_, ?_, htests, Nat.succ_le_succ hroom⟩
        · simp [hafter]
        · have hkinds : kindsOf (⟨.sign .leftParen, place⟩ :: (used ++
              [⟨.sign .rightParen, closePlace⟩])) =
              .sign .leftParen :: (kindsOf used ++ [.sign .rightParen]) := by simp
          rw [hkinds]
          exact .parentheses hd
      · exact readTest_sound h (room + 1)

/-! ## What follows an operand -/

section
variable {connective : Keyword} {join : Predicate → Predicate → Predicate}
  {operand : ConditionReader} {room tests : Nat} {tokens rest : List Token} {left : Condition}

/-- What a reader finds uses up a test. -/
def Consumes (reader : ConditionReader) : Prop :=
  ∀ tests tokens c, reader tests tokens = some c → c.tests < tests

theorem Sound.consumes {level : GrammarLevel} (h : Sound level room operand) :
    Consumes operand := by
  intro tests tokens c hc
  obtain ⟨used, n, d, -, hd, htests, -⟩ := h _ _ _ hc
  have := hd.tests_pos
  omega

/-- A reader that may read as many operands as tests does not stop for want of operands. -/
theorem readOperands_step (hop : Consumes operand) {more : Nat} (h : left.tests ≤ more) :
    readOperands connective join operand more left =
      match accept? (.keyword connective) left.rest with
      | none => some left
      | some rest => (operand left.tests rest).bind fun right =>
          readOperands connective join operand (more - 1)
            ⟨join left.predicate right.predicate, right.tests, right.rest⟩ := by
  cases more with
  | zero =>
    unfold readOperands
    cases accept? (.keyword connective) left.rest with
    | none => rfl
    | some rest =>
      cases hright : operand left.tests rest with
      | none => simp [hright]
      | some right =>
        have := hop _ _ _ hright
        omega
  | succ more => rfl

theorem readOperands_congr (hop : Consumes operand) {m n : Nat} (hm : left.tests ≤ m)
    (hn : left.tests ≤ n) :
    readOperands connective join operand m left = readOperands connective join operand n left := by
  induction hk : left.tests using Nat.strongRecOn generalizing left m n with
  | ind k ih =>
    rw [readOperands_step hop hm, readOperands_step hop hn]
    cases accept? (.keyword connective) left.rest with
    | none => rfl
    | some rest =>
      cases hright : operand left.tests rest with
      | none => simp [hright]
      | some right =>
        have hlt := hop _ _ _ hright
        simp only [hright, Option.bind_some]
        exact ih right.tests (hk ▸ hlt) (by show right.tests ≤ m - 1; omega)
          (by show right.tests ≤ n - 1; omega) rfl

/-- The operands that may still follow. -/
def readMore (connective : Keyword) (join : Predicate → Predicate → Predicate)
    (operand : ConditionReader) (left : Condition) : Option Condition :=
  readOperands connective join operand left.tests left

theorem readMore_of_none (hop : Consumes operand)
    (h : accept? (.keyword connective) left.rest = none) :
    readMore connective join operand left = some left := by
  rw [readMore, readOperands_step hop (Nat.le_refl _), h]

theorem readMore_of_some (hop : Consumes operand)
    (h : accept? (.keyword connective) left.rest = some rest) :
    readMore connective join operand left =
      (operand left.tests rest).bind fun right => readMore connective join operand
        ⟨join left.predicate right.predicate, right.tests, right.rest⟩ := by
  rw [readMore, readOperands_step hop (Nat.le_refl _), h]
  cases hright : operand left.tests rest with
  | none => simp [hright]
  | some right =>
    have := hop _ _ _ hright
    simp only [hright, Option.bind_some]
    exact readOperands_congr hop (by show right.tests ≤ left.tests - 1; omega) (Nat.le_refl _)

/-! ## What is spelled -/

/-- The first operand. -/
theorem readChain_single {ok : Prop} [Decidable ok] {c : Condition}
    (h : operand tests tokens = if ok then some c else none) :
    readChain connective join operand tests tokens =
      if ok then readMore connective join operand c else none := by
  by_cases hok : ok <;> simp [readChain, h, hok, readMore]

/-- One more operand. -/
theorem readChain_joined (hop : Consumes operand) {p₁ p₂ : Predicate} {n₁ n₂ d₁ d₂ : Nat}
    {place : Position} {after : List Token}
    (hleft : readChain connective join operand tests tokens =
      if n₁ ≤ tests ∧ d₁ ≤ room then
        readMore connective join operand ⟨p₁, tests - n₁, ⟨.keyword connective, place⟩ :: after⟩
      else none)
    (hright : operand (tests - n₁) after =
      if n₂ ≤ tests - n₁ ∧ d₂ ≤ room then some ⟨p₂, tests - n₁ - n₂, rest⟩ else none) :
    readChain connective join operand tests tokens =
      if n₁ + n₂ ≤ tests ∧ max d₁ d₂ ≤ room then
        readMore connective join operand ⟨join p₁ p₂, tests - (n₁ + n₂), rest⟩
      else none := by
  rw [hleft]
  by_cases hok₁ : n₁ ≤ tests ∧ d₁ ≤ room
  · rw [if_pos hok₁, readMore_of_some hop (accept?_cons _ place after), hright]
    by_cases hok₂ : n₂ ≤ tests - n₁ ∧ d₂ ≤ room
    · rw [if_pos hok₂, if_pos (by omega), Option.bind_some, Nat.sub_sub]
    · rw [if_neg hok₂, if_neg (by omega), Option.bind_none]
  · rw [if_neg hok₁, if_neg (by omega)]

end

/-- How a reader of each level reads the tokens of a condition: it gives up if there are too few
    tests or there is too little room, and goes on with what follows if not. -/
def Reads (level : GrammarLevel) (ks : List TokenKind) (p : Predicate) (n d : Nat) : Prop :=
  ∀ room tests tokens rest, kindsOf tokens = ks →
    match level with
    | .operand =>
      readOperand room tests (tokens ++ rest) =
        if n ≤ tests ∧ d ≤ room then some ⟨p, tests - n, rest⟩ else none
    | .conjunction =>
      readChain .and .and (readOperand room) tests (tokens ++ rest) =
        if n ≤ tests ∧ d ≤ room then readMore .and .and (readOperand room) ⟨p, tests - n, rest⟩
        else none
    | .alternatives =>
      accept? (.keyword .and) rest = none →
        readAlternatives (readOperand room) tests (tokens ++ rest) =
          if n ≤ tests ∧ d ≤ room then
            readMore .or .or (readChain .and .and (readOperand room)) ⟨p, tests - n, rest⟩
          else none

theorem readOperand_consumes (room : Nat) : Consumes (readOperand room) :=
  (readOperand_sound room).consumes

theorem readConjunction_consumes (room : Nat) :
    Consumes (readChain .and .and (readOperand room)) :=
  (readChain_sound joins_and (readOperand_sound room)).consumes

theorem readOperand_of_column {column : String} {used : List Token}
    (h : SpellsColumn column (kindsOf used)) (room tests : Nat) (rest : List Token) :
    readOperand room tests (used ++ rest) = readTest tests (used ++ rest) := by
  obtain ⟨name, place, after, rfl⟩ := exists_name_of_spellsColumn h
  cases room <;> rfl

theorem Derives.reads {level : GrammarLevel} {ks : List TokenKind} {p : Predicate} {n d : Nat}
    (h : Derives level ks p n d) : Reads level ks p n d := by
  induction h with
  | conjunction _ ih =>
    intro room tests tokens rest hks hrest
    refine readChain_single ((ih room tests tokens rest hks).trans ?_)
    rw [readMore_of_none (readOperand_consumes room) hrest]
  | @or ks₁ ks₂ p₁ p₂ n₁ n₂ d₁ d₂ _ _ ih₁ ih₂ =>
    intro room tests tokens rest hks hrest
    obtain ⟨used₁, after, rfl, hused₁, hafter⟩ := List.map_eq_append_iff.1 hks
    obtain ⟨place, used₂, rfl, hused₂⟩ := kindsOf_eq_cons hafter
    rw [List.append_assoc]
    have hleft := ih₁ room tests used₁ (⟨.keyword .or, place⟩ :: (used₂ ++ rest)) hused₁ rfl
    have hright := ih₂ room (tests - n₁) used₂ rest hused₂
    dsimp only at hright
    rw [readMore_of_none (readOperand_consumes room) hrest] at hright
    exact readChain_joined (readConjunction_consumes room) hleft hright
  | operand _ ih =>
    intro room tests tokens rest hks
    exact readChain_single (ih room tests tokens rest hks)
  | @and ks₁ ks₂ p₁ p₂ n₁ n₂ d₁ d₂ _ _ ih₁ ih₂ =>
    intro room tests tokens rest hks
    obtain ⟨used₁, after, rfl, hused₁, hafter⟩ := List.map_eq_append_iff.1 hks
    obtain ⟨place, used₂, rfl, hused₂⟩ := kindsOf_eq_cons hafter
    dsimp only
    rw [List.append_assoc]
    have hleft := ih₁ room tests used₁ (⟨.keyword .and, place⟩ :: (used₂ ++ rest)) hused₁
    have hright := ih₂ room (tests - n₁) used₂ rest hused₂
    exact readChain_joined (readOperand_consumes room) hleft hright
  | @not ks p n d _ ih =>
    intro room tests tokens rest hks
    obtain ⟨place, used, rfl, hused⟩ := kindsOf_eq_cons hks
    cases room with
    | zero => simp [readOperand, accept?]
    | succ room =>
      have hinner := ih room tests used rest hused
      simp only [List.cons_append, readOperand, accept?_cons, hinner]
      by_cases hok : n ≤ tests ∧ d ≤ room
      · rw [if_pos hok, if_pos (by omega)]
        rfl
      · rw [if_neg hok, if_neg (by omega)]
        rfl
  | @parentheses ks p n d _ ih =>
    intro room tests tokens rest hks
    obtain ⟨place, after, rfl, hafter⟩ := kindsOf_eq_cons hks
    obtain ⟨used, last, rfl, hused, hlast⟩ := List.map_eq_append_iff.1 hafter
    obtain ⟨closePlace, rfl⟩ := kindsOf_eq_singleton hlast
    cases room with
    | zero => simp [readOperand, accept?]
    | succ room =>
      have hinner := ih room tests used (⟨.sign .rightParen, closePlace⟩ :: rest) hused rfl
      rw [readMore_of_none (readConjunction_consumes room) rfl] at hinner
      have hnot : accept? (.keyword .not) (⟨.sign .leftParen, place⟩ :: (used ++
          ⟨.sign .rightParen, closePlace⟩ :: rest)) = none := rfl
      simp only [List.cons_append, List.append_assoc, List.nil_append, readOperand, hnot,
        accept?_cons, hinner]
      by_cases hok : n ≤ tests ∧ d ≤ room
      · rw [if_pos hok, if_pos (by omega)]
        simp [accept?_cons]
      · rw [if_neg hok, if_neg (by omega)]
        rfl
  | isNull hcolumn =>
    intro room tests tokens rest hks
    obtain ⟨used, after, rfl, rfl, hafter⟩ := List.map_eq_append_iff.1 hks
    obtain ⟨place, _, rfl, hnull⟩ := kindsOf_eq_cons hafter
    obtain ⟨nullPlace, rfl⟩ := kindsOf_eq_singleton hnull
    dsimp only
    rw [List.append_assoc, readOperand_of_column hcolumn]
    simpa using readTest_isNull hcolumn place nullPlace
  | isNotNull hcolumn =>
    intro room tests tokens rest hks
    obtain ⟨used, after, rfl, rfl, hafter⟩ := List.map_eq_append_iff.1 hks
    obtain ⟨place, after', rfl, hnot⟩ := kindsOf_eq_cons hafter
    obtain ⟨notPlace, _, rfl, hnull⟩ := kindsOf_eq_cons hnot
    obtain ⟨nullPlace, rfl⟩ := kindsOf_eq_singleton hnull
    dsimp only
    rw [List.append_assoc, readOperand_of_column hcolumn]
    simpa using readTest_isNotNull hcolumn place notPlace nullPlace
  | compare hcolumn hop hliteral =>
    intro room tests tokens rest hks
    obtain ⟨used, after, rfl, rfl, hafter⟩ := List.map_eq_append_iff.1 hks
    obtain ⟨place, literal, rfl, rfl⟩ := kindsOf_eq_cons hafter
    dsimp only
    rw [List.append_assoc, readOperand_of_column hcolumn]
    simpa using readTest_compare hcolumn place hop hliteral

/-! ## Whole conditions -/

section
variable {level : GrammarLevel} {ks : List TokenKind} {p p₁ p₂ : Predicate} {n n₁ n₂ d d₁ d₂ : Nat}

/-- A condition of any level stands for itself at the loosest one. -/
theorem Derives.loosen (h : Derives level ks p n d) : Derives .alternatives ks p n d := by
  cases level with
  | alternatives => exact h
  | conjunction => exact .conjunction h
  | operand => exact .conjunction (.operand h)

theorem readAlternatives_eq {tokens : List Token} (h : Derives level (kindsOf tokens) p n d)
    (room tests : Nat) :
    readAlternatives (readOperand room) tests tokens =
      if n ≤ tests ∧ d ≤ room then some ⟨p, tests - n, []⟩ else none := by
  have hread := h.loosen.reads room tests tokens [] rfl rfl
  rwa [List.append_nil, readMore_of_none (readConjunction_consumes room) rfl] at hread

/-- **The grammar is unambiguous.**  Tokens spell at most one condition, with one number of tests
    and one nesting. -/
theorem Derives.unique (h₁ : Derives level ks p₁ n₁ d₁) (h₂ : Derives level ks p₂ n₂ d₂) :
    p₁ = p₂ ∧ n₁ = n₂ ∧ d₁ = d₂ := by
  obtain ⟨tokens, rfl⟩ : ∃ tokens, kindsOf tokens = ks :=
    ⟨ks.map fun k => ⟨k, ⟨0, 0⟩⟩, by simp [Function.comp_def]⟩
  -- a reader with just enough tests and room for the one condition reads the other one too
  have hfirst := (readAlternatives_eq h₁ d₁ n₁).symm.trans (readAlternatives_eq h₂ d₁ n₁)
  have hsecond := (readAlternatives_eq h₂ d₂ n₂).symm.trans (readAlternatives_eq h₁ d₂ n₂)
  rw [if_pos ⟨Nat.le_refl _, Nat.le_refl _⟩] at hfirst hsecond
  split at hfirst
  · next hok₁ =>
    split at hsecond
    · next hok₂ =>
      simp only [Option.some.injEq, Condition.mk.injEq] at hfirst
      exact ⟨hfirst.1, by omega, by omega⟩
    · cases hsecond
  · cases hfirst

end

end PocketSql
