/-
  The readers of columns, literals and single tests, against the grammar.

  * `accept?_eq_some`: what it takes for a token to be accepted;
  * `readColumnName_sound`, `readColumnName_spells`, `readLiteral_sound`, `readLiteral_spells`;
  * `readTest_sound`: a test that is read stands at the start of the tokens;
  * `readTest_isNull`, `readTest_isNotNull`, `readTest_compare`: each form of a test is read, if one
    more may be.
-/
import PocketSql.Predicate.Grammar
import PocketSql.Error

namespace PocketSql

/-- The kinds of tokens. -/
abbrev kindsOf (tokens : List Token) : List TokenKind :=
  tokens.map Token.kind

/-! ## Single tokens -/

section
variable {kind : TokenKind} {place : Position} {tokens rest : List Token}

theorem accept?_cons (kind : TokenKind) (place : Position) (rest : List Token) :
    accept? kind (⟨kind, place⟩ :: rest) = some rest := by
  simp [accept?]

theorem accept?_of_ne {other : TokenKind} (h : other ≠ kind) (place : Position)
    (rest : List Token) : accept? kind (⟨other, place⟩ :: rest) = none := by
  simp [accept?, h]

theorem accept?_eq_some :
    accept? kind tokens = some rest ↔ ∃ place, tokens = ⟨kind, place⟩ :: rest := by
  cases tokens with
  | nil => simp [accept?]
  | cons t tokens =>
    obtain ⟨other, place⟩ := t
    by_cases h : other = kind
    · subst h
      simp [accept?]
    · simp [accept?, h]

theorem kindsOf_append (tokens rest : List Token) :
    kindsOf (tokens ++ rest) = kindsOf tokens ++ kindsOf rest :=
  List.map_append

theorem kindsOf_eq_cons {kinds : List TokenKind} (h : kindsOf tokens = kind :: kinds) :
    ∃ place rest, tokens = ⟨kind, place⟩ :: rest ∧ kindsOf rest = kinds := by
  obtain ⟨⟨_, place⟩, rest, rfl, rfl, hrest⟩ := List.map_eq_cons_iff.1 h
  exact ⟨place, rest, rfl, hrest⟩

theorem kindsOf_eq_singleton (h : kindsOf tokens = [kind]) : ∃ place, tokens = [⟨kind, place⟩] := by
  obtain ⟨place, rest, rfl, hrest⟩ := kindsOf_eq_cons h
  exact ⟨place, by rw [List.map_eq_nil_iff.1 hrest]⟩

end

/-! ## Columns -/

section
variable {tokens rest used : List Token} {name column : String}

theorem readNameAs_eq_ok {wanted : Wanted} :
    readNameAs wanted tokens = .ok (name, rest) ↔ ∃ place, tokens = ⟨.name name, place⟩ :: rest := by
  unfold readNameAs
  split
  · simp
  · next hother =>
    refine ⟨(nomatch ·), ?_⟩
    rintro ⟨place, rfl⟩
    exact absurd rfl (hother name place rest)

theorem readName_eq_ok :
    readName tokens = .ok (name, rest) ↔ ∃ place, tokens = ⟨.name name, place⟩ :: rest :=
  readNameAs_eq_ok

theorem readColumnName_sound (h : readColumnName tokens = .ok (column, rest)) :
    ∃ used, tokens = used ++ rest ∧ SpellsColumn column (kindsOf used) := by
  simp only [readColumnName, bind_eq_ok] at h
  obtain ⟨⟨first, after⟩, hfirst, h⟩ := h
  obtain ⟨place, rfl⟩ := readName_eq_ok.1 hfirst
  split at h
  · next after' hdot =>
    obtain ⟨dotPlace, rfl⟩ := accept?_eq_some.1 hdot
    obtain ⟨lastPlace, rfl⟩ := readName_eq_ok.1 h
    exact ⟨[⟨.name first, place⟩, ⟨.sign .dot, dotPlace⟩, ⟨.name column, lastPlace⟩], rfl,
      .qualified⟩
  · cases h
    exact ⟨[⟨.name first, place⟩], rfl, .plain⟩

theorem readColumnName_spells (h : SpellsColumn column (kindsOf used))
    (hrest : accept? (.sign .dot) rest = none) :
    readColumnName (used ++ rest) = .ok (column, rest) := by
  simp only [readColumnName, bind_eq_ok]
  generalize hks : kindsOf used = ks at h
  cases h with
  | plain =>
    obtain ⟨place, rfl⟩ := kindsOf_eq_singleton hks
    exact ⟨(column, rest), readName_eq_ok.2 ⟨place, rfl⟩, by rw [hrest]⟩
  | qualified =>
    obtain ⟨place, _, rfl, hks₁⟩ := kindsOf_eq_cons hks
    obtain ⟨dotPlace, _, rfl, hks₂⟩ := kindsOf_eq_cons hks₁
    obtain ⟨lastPlace, rfl⟩ := kindsOf_eq_singleton hks₂
    exact ⟨_, readName_eq_ok.2 ⟨place, rfl⟩, readName_eq_ok.2 ⟨lastPlace, rfl⟩⟩

theorem exists_name_of_spellsColumn (h : SpellsColumn column (kindsOf used)) :
    ∃ name place after, used = ⟨.name name, place⟩ :: after := by
  generalize hks : kindsOf used = ks at h
  cases h with
  | plain =>
    obtain ⟨place, after, rfl, -⟩ := kindsOf_eq_cons hks
    exact ⟨_, place, after, rfl⟩
  | qualified =>
    obtain ⟨place, after, rfl, -⟩ := kindsOf_eq_cons hks
    exact ⟨_, place, after, rfl⟩

/-! ## Literals -/

theorem readNumber_eq_ok {text : List Char} {v : Value} {after : List Token} {t : Token} :
    readNumber text (t :: after) = .ok (v, rest) ↔
      Value.ofNumberText? text = some v ∧ after = rest := by
  unfold readNumber
  split
  · next w hw => simp [hw]
  · next hnone => simp [hnone]

theorem readLiteral_sound {v : Value} (h : readLiteral tokens = .ok (v, rest)) :
    ∃ used, tokens = used ++ rest ∧ SpellsLiteral (kindsOf used) v := by
  unfold readLiteral at h
  split at h
  · cases h
  · next t after =>
    obtain ⟨kind, place⟩ := t
    dsimp only at h
    split at h
    · cases h
      exact ⟨[⟨_, place⟩], rfl, .text⟩
    · next digits =>
      obtain ⟨hv, rfl⟩ := readNumber_eq_ok.1 h
      exact ⟨[⟨.number digits, place⟩], rfl, .number hv⟩
    · split at h
      · next digits numberPlace after' =>
        obtain ⟨hv, rfl⟩ := readNumber_eq_ok.1 h
        exact ⟨[⟨.sign .minus, place⟩, ⟨.number digits, numberPlace⟩], rfl, .negative hv⟩
      · cases h
    · cases h
      exact ⟨[⟨_, place⟩], rfl, .true⟩
    · cases h
      exact ⟨[⟨_, place⟩], rfl, .false⟩
    · cases h
      exact ⟨[⟨_, place⟩], rfl, .null⟩
    · cases h

theorem readLiteral_spells {v : Value} (h : SpellsLiteral (kindsOf used) v) :
    readLiteral (used ++ rest) = .ok (v, rest) := by
  generalize hks : kindsOf used = ks at h
  cases h with
  | text | true | false | null =>
    obtain ⟨place, rfl⟩ := kindsOf_eq_singleton hks
    rfl
  | number hv =>
    obtain ⟨place, rfl⟩ := kindsOf_eq_singleton hks
    exact readNumber_eq_ok.2 ⟨hv, rfl⟩
  | negative hv =>
    obtain ⟨place, _, rfl, hks₁⟩ := kindsOf_eq_cons hks
    obtain ⟨numberPlace, rfl⟩ := kindsOf_eq_singleton hks₁
    exact readNumber_eq_ok.2 ⟨hv, rfl⟩

end

/-! ## Tests -/

section
variable {tokens rest used : List Token} {column : String} {tests : Nat} {c : Condition}

/-- What a reader of conditions finds: it has used up tokens of a condition, within the room for
    negations and parentheses, and as many tests as the condition has. -/
def FindsIn (level : GrammarLevel) (room tests : Nat) (tokens : List Token) (c : Condition) :
    Prop :=
  ∃ used n d, tokens = used ++ c.rest ∧ Derives level (kindsOf used) c.predicate n d ∧
    c.tests + n = tests ∧ d ≤ room

theorem readNullTest_sound (h : readNullTest column tests tokens = some c) :
    ∃ used negated, tokens = used ++ c.rest ∧ c.predicate = .isNull column negated ∧
      c.tests = tests ∧ kindsOf used =
        if negated then [.keyword .not, .keyword .null] else [.keyword .null] := by
  unfold readNullTest at h
  split at h
  · next after hnot =>
    obtain ⟨place, rfl⟩ := accept?_eq_some.1 hnot
    obtain ⟨rest, hnull, rfl⟩ := Option.map_eq_some_iff.1 h
    obtain ⟨nullPlace, rfl⟩ := accept?_eq_some.1 hnull
    exact ⟨[⟨_, place⟩, ⟨_, nullPlace⟩], true, rfl, rfl, rfl, rfl⟩
  · obtain ⟨rest, hnull, rfl⟩ := Option.map_eq_some_iff.1 h
    obtain ⟨nullPlace, rfl⟩ := accept?_eq_some.1 hnull
    exact ⟨[⟨_, nullPlace⟩], false, rfl, rfl, rfl, rfl⟩

theorem readComparison_sound (h : readComparison column tests tokens = some c) :
    ∃ used s op ls v, tokens = used ++ c.rest ∧ c.predicate = .compare column op v ∧
      c.tests = tests ∧ kindsOf used = .sign s :: ls ∧ CompareOp.ofSign? s = some op ∧
      SpellsLiteral ls v := by
  unfold readComparison at h
  split at h
  · next s place after =>
    simp only [Option.bind_eq_bind, Option.bind_eq_some_iff, toOption_eq_some] at h
    obtain ⟨op, hop, ⟨v, rest⟩, hv, h⟩ := h
    cases h
    obtain ⟨used, rfl, hused⟩ := readLiteral_sound hv
    exact ⟨⟨.sign s, place⟩ :: used, s, op, kindsOf used, v, rfl, rfl, rfl, rfl, hop, hused⟩
  · cases h

theorem readTest_sound (h : readTest tests tokens = some c) (room : Nat) :
    FindsIn .operand room tests tokens c := by
  cases tests with
  | zero => cases h
  | succ tests =>
    simp only [readTest, Option.bind_eq_bind, Option.bind_eq_some_iff, toOption_eq_some] at h
    obtain ⟨⟨column, after⟩, hcolumn, h⟩ := h
    obtain ⟨first, rfl, hfirst⟩ := readColumnName_sound hcolumn
    dsimp only at h
    split at h
    · next after' his =>
      obtain ⟨place, rfl⟩ := accept?_eq_some.1 his
      obtain ⟨used, negated, rfl, hp, htests, hused⟩ := readNullTest_sound h
      refine ⟨first ++ ⟨.keyword .is, place⟩ :: used, 1, 0, by simp, ?_, by omega, Nat.zero_le _⟩
      simp only [kindsOf, List.map_append, List.map_cons] at hused ⊢
      rw [hp, hused]
      cases negated with
      | true => exact .isNotNull hfirst
      | false => exact .isNull hfirst
    · obtain ⟨used, s, op, ls, v, rfl, hp, htests, hused, hop, hv⟩ := readComparison_sound h
      refine ⟨first ++ used, 1, 0, by simp, ?_, by omega, Nat.zero_le _⟩
      rw [hp, kindsOf_append, hused]
      exact .compare hfirst hop hv

/-- What is spelled is read if one more test may be. -/
theorem readTest_is (h : SpellsColumn column (kindsOf used)) (place : Position) :
    readTest tests (used ++ ⟨.keyword .is, place⟩ :: rest) =
      if 1 ≤ tests then readNullTest column (tests - 1) rest else none := by
  have hdot : accept? (.sign .dot) (⟨.keyword .is, place⟩ :: rest) = none := rfl
  cases tests with
  | zero => rfl
  | succ tests =>
    simp only [readTest, readColumnName_spells h hdot]
    simp [Except.toOption, accept?_cons]

theorem readTest_isNull (h : SpellsColumn column (kindsOf used)) (place nullPlace : Position) :
    readTest tests (used ++ ⟨.keyword .is, place⟩ :: ⟨.keyword .null, nullPlace⟩ :: rest) =
      if 1 ≤ tests then some ⟨.isNull column false, tests - 1, rest⟩ else none :=
  readTest_is h place

theorem readTest_isNotNull (h : SpellsColumn column (kindsOf used))
    (place notPlace nullPlace : Position) :
    readTest tests (used ++ ⟨.keyword .is, place⟩ :: ⟨.keyword .not, notPlace⟩ ::
        ⟨.keyword .null, nullPlace⟩ :: rest) =
      if 1 ≤ tests then some ⟨.isNull column true, tests - 1, rest⟩ else none :=
  readTest_is h place

theorem readTest_compare {literal : List Token} {s : Sign} {op : CompareOp} {v : Value}
    (h : SpellsColumn column (kindsOf used)) (place : Position)
    (hop : CompareOp.ofSign? s = some op) (hv : SpellsLiteral (kindsOf literal) v) :
    readTest tests (used ++ ⟨.sign s, place⟩ :: (literal ++ rest)) =
      if 1 ≤ tests then some ⟨.compare column op v, tests - 1, rest⟩ else none := by
  have hdot : accept? (.sign .dot) (⟨.sign s, place⟩ :: (literal ++ rest)) = none := by
    refine accept?_of_ne ?_ _ _
    rintro ⟨⟩
    cases hop
  cases tests with
  | zero => rfl
  | succ tests =>
    simp only [readTest, readColumnName_spells h hdot]
    simp [accept?, readComparison, hop, readLiteral_spells hv, Except.toOption]

end

end PocketSql
