/-
  Words with groups in parentheses that the clause of a column passes over.

  * `beginsConstraint`, `holdsConstraint`: where a constraint begins among some tokens;
    `Builds.skip`: none is read if none begins, `Builds.not_bare`: and one is if one begins;
  * `ColumnPlace`: where a word with a group may stand in the clause of a column,
    `ColumnPlace.readClause_wordWithGroup`: what is then read;
  * `Balanced.whole`: a group whose parentheses match stays in its clause;
  * `group_passed_over_iff`: so the clause is read as before, and the text defines the same table, if
    no constraint begins in the group.
-/
import PocketSql.Proofs.Statement.ColumnList
import PocketSql.Proofs.Statement.Constraints

namespace PocketSql

/-! ## Tokens that are passed over -/

/-- A constraint begins with the first of some tokens. -/
def beginsConstraint : List TokenKind → Bool
  | .keyword .unique :: _ | .keyword .default :: _ | .keyword .references :: _ => true
  | .keyword .primary :: .keyword .key :: _ | .keyword .not :: .keyword .null :: _ => true
  | _ => false

/-- A constraint begins somewhere among some tokens. -/
def holdsConstraint : List TokenKind → Bool
  | [] => false
  | kind :: kinds => beginsConstraint (kind :: kinds) || holdsConstraint kinds

theorem beginsConstraint_append_close (kinds others : List TokenKind) :
    beginsConstraint (kinds ++ .sign .rightParen :: others) = beginsConstraint kinds := by
  rcases kinds with _ | ⟨kind, _ | ⟨kind', kinds⟩⟩
  · rfl
  · cases kind with
    | keyword k => cases k <;> rfl
    | _ => rfl
  · cases kind with
    | keyword k =>
      cases k with
      | primary | not =>
        cases kind' with
        | keyword k' => cases k' <;> rfl
        | _ => rfl
      | _ => rfl
    | _ => rfl

/-- No constraint goes on after a closing parenthesis. -/
theorem holdsConstraint_append_close (kinds others : List TokenKind) :
    holdsConstraint (kinds ++ .sign .rightParen :: others) =
      (holdsConstraint kinds || holdsConstraint others) := by
  induction kinds with
  | nil => rfl
  | cons kind kinds ih =>
    have hfirst := beginsConstraint_append_close (kind :: kinds) others
    rw [List.cons_append] at hfirst ⊢
    rw [holdsConstraint, holdsConstraint, hfirst, ih, Bool.or_assoc]

/-- The column has no constraints. -/
def Column.Bare (c : Column) : Prop :=
  c = .ofName c.name c.type

section
variable {c c' : Column} {kind : TokenKind} {rest left : List Token}

/-- PRIMARY begins a constraint before KEY, and NOT before NULL. -/
theorem beginsConstraint_before {first second : Keyword}
    (h : (first, second) = (.primary, .key) ∨ (first, second) = (.not, .null)) (rest : List Token) :
    beginsConstraint (.keyword first :: kindsOf rest) =
      (accept? (.keyword second) rest).isSome := by
  rcases rest with _ | ⟨⟨kind, place⟩, rest⟩
  · rcases h with h | h <;> cases h <;> rfl
  · rcases h with h | h <;> cases h <;> cases kind with
    | keyword k => cases k <;> rfl
    | _ => rfl

theorem readConstraint_skip (h : beginsConstraint (kind :: kindsOf rest) = false) :
    readConstraint c kind rest = .ok (c, rest) := by
  unfold readConstraint
  split
  · rw [beginsConstraint_before (.inl rfl), Option.isSome_eq_false_iff, Option.isNone_iff_eq_none] at h
    rw [h]
  · rw [beginsConstraint_before (.inr rfl), Option.isSome_eq_false_iff, Option.isNone_iff_eq_none] at h
    rw [h]
  · cases h
  · cases h
  · cases h
  · rfl

/-- A column that a constraint makes is not bare. -/
theorem readConstraint_not_bare (h : readConstraint c kind rest = .ok (c', left))
    (hbegins : beginsConstraint (kind :: kindsOf rest) = true) : ¬ c'.Bare := by
  unfold readConstraint at h
  split at h
  · rw [beginsConstraint_before (.inl rfl)] at hbegins
    obtain ⟨after, hkey⟩ := Option.isSome_iff_exists.1 hbegins
    rw [hkey] at h
    cases h
    simp [Column.Bare, Column.asPrimaryKey, Column.ofName]
  · rw [beginsConstraint_before (.inr rfl)] at hbegins
    obtain ⟨after, hnull⟩ := Option.isSome_iff_exists.1 hbegins
    rw [hnull] at h
    cases h
    simp [Column.Bare, Column.asNotNull, Column.ofName]
  · cases h
    simp [Column.Bare, Column.asUnique, Column.ofName]
  · obtain ⟨⟨d, after⟩, -, h⟩ := bind_eq_ok.1 h
    cases h
    simp [Column.Bare, Column.withDefault, Column.ofName]
  · obtain ⟨⟨r, after⟩, -, h⟩ := bind_eq_ok.1 h
    cases h
    simp [Column.Bare, Column.withReference, Column.ofName]
  · next hprimary hnot hunique hdefault hreferences =>
    unfold beginsConstraint at hbegins
    split at hbegins <;> simp_all

end

namespace Builds

variable {c c' : Column} {tokens after : List Token}

/-- Tokens among which no constraint begins are passed over, and so is a parenthesis that closes. -/
theorem skip (h : holdsConstraint (kindsOf tokens) = false) (place : Position) :
    Builds c (tokens ++ ⟨.sign .rightParen, place⟩ :: after) c after := by
  induction tokens with
  | nil => exact .step rfl (.refl c after)
  | cons t tokens ih =>
    obtain ⟨hfirst, hothers⟩ := Bool.or_eq_false_iff.1 h
    refine .step (readConstraint_skip ?_) (ih hothers)
    have hclose := beginsConstraint_append_close (t.kind :: kindsOf tokens) (kindsOf after)
    have hkinds := kindsOf_append tokens (⟨.sign .rightParen, place⟩ :: after)
    exact (congrArg (beginsConstraint <| t.kind :: ·) hkinds).trans (hclose.trans hfirst)

/-- A constraint that is read stays: no later one takes it away, and every other token is passed
    over. -/
theorem not_bare (h : Builds c tokens c' [])
    (hholds : ¬ c.Bare ∨ holdsConstraint (kindsOf tokens) = true) : ¬ c'.Bare := by
  generalize hend : ([] : List Token) = after at h
  induction h with
  | refl =>
    subst hend
    exact hholds.resolve_right nofun
  | @step c c₁ c' t rest left after hfirst hothers ih =>
    refine ih ?_ hend
    cases hbegins : beginsConstraint (t.kind :: kindsOf rest) with
    | true => exact .inl (readConstraint_not_bare hfirst hbegins)
    | false =>
      obtain ⟨rfl, rfl⟩ : c₁ = c ∧ left = rest := by
        rw [readConstraint_skip hbegins] at hfirst
        cases hfirst
        exact ⟨rfl, rfl⟩
      refine hholds.imp_right fun h => ?_
      exact (Bool.or_eq_true_iff.1 h).resolve_left (Bool.eq_false_iff.1 hbegins)

end Builds

/-! ## Groups in the clause of a column -/

/-- A word and a group in parentheses. -/
def wordWithGroup (word : String) (group : List TokenKind) : List TokenKind :=
  .name word :: .sign .leftParen :: (group ++ [.sign .rightParen])

/-- A place in the clause of a column: after its type, or one of its constraints, or a token that is
    passed over.  Right after the name a word is the type. -/
structure ColumnPlace (c : Column) (before after : List Token) : Prop where
  reads : readClause (before ++ after) = .ok (.column c)
  reached : ∃ name rest type left c₁, readName (before ++ after) = .ok (name, rest) ∧
    readColumnType rest = .ok (type, left) ∧ Builds (.ofName name type) left c₁ after
  not_type : 1 < before.length

/-- What a place is followed by goes on from one column, if a name comes first. -/
theorem ColumnPlace.exists_column {c : Column} {before after : List Token}
    (h : ColumnPlace c before after) :
    ∃ c₁, Builds c₁ after c [] ∧ ∀ word place others c',
      readClause (before ++ ⟨.name word, place⟩ :: others) = .ok (.column c') ↔
        Builds c₁ (⟨.name word, place⟩ :: others) c' [] := by
  obtain ⟨⟨first, firstPlace, clause, hfirst, hwords⟩, hcolumn⟩ := readClause_eq_column.1 h.reads
  obtain ⟨name, rest, type, left, c₁, hname, htype, hbuilds⟩ := h.reached
  -- the name, the type and the constraints before the place
  obtain ⟨namePlace, htokens⟩ := readName_eq_ok.1 hname
  obtain ⟨used, rfl, hunnamed, hused⟩ := readColumnType_local htype
  obtain ⟨passed, rfl, hpassed⟩ := hbuilds.replaced
  obtain rfl : before = ⟨.name name, namePlace⟩ :: (used ++ passed) :=
    List.append_cancel_right (by simpa using htokens)
  have hbegins : ∀ other ∈ ["foreign", "constraint", "check"], isWord other name = false := by
    cases hfirst
    exact hwords
  refine ⟨c₁, hbuilds.toEnd ((readColumn_eq_ok hname htype).1 hcolumn),
    fun word place others c' => ?_⟩
  have hnew : NothingNew after (⟨.name word, place⟩ :: others) := by
    rintro _ ⟨⟩
    exact .inl ⟨word, rfl⟩
  have hnewType := hused _ (hnew.append passed) fun hnil => by
    subst hnil
    cases passed with
    | nil => exact absurd h.not_type (by simp)
    | cons u passed => exact hunnamed rfl
  have hnewName := readName_eq_ok.2 ⟨namePlace, congrArg (⟨.name name, namePlace⟩ :: ·)
    (List.append_assoc used passed (⟨.name word, place⟩ :: others))⟩
  rw [readClause_eq_column]
  constructor
  · rintro ⟨-, hcolumn'⟩
    exact (hpassed _ hnew).toEnd ((readColumn_eq_ok hnewName hnewType).1 hcolumn')
  · intro hend
    exact ⟨⟨name, namePlace, _, rfl, hbegins⟩,
      (readColumn_eq_ok hnewName hnewType).2 ((hpassed _ hnew).trans hend)⟩

/-- A word with a group that holds no constraint is passed over, and one that holds one makes no
    bare column. -/
theorem ColumnPlace.readClause_wordWithGroup {c : Column} {before after inserted : List Token}
    {word : String} {group : List TokenKind} (h : ColumnPlace c before after)
    (hinserted : kindsOf inserted = wordWithGroup word group) :
    (holdsConstraint group = false →
      readClause (before ++ (inserted ++ after)) = .ok (.column c)) ∧
    (c.Bare → readClause (before ++ (inserted ++ after)) = .ok (.column c) →
      holdsConstraint group = false) := by
  obtain ⟨c₁, hend, hread⟩ := h.exists_column
  obtain ⟨place, _, rfl, hgroup⟩ := kindsOf_eq_cons hinserted
  obtain ⟨openPlace, _, rfl, hinside⟩ := kindsOf_eq_cons hgroup
  obtain ⟨inside, _, rfl, rfl, hclose⟩ := kindsOf_eq_append hinside
  obtain ⟨closePlace, rfl⟩ := kindsOf_eq_singleton hclose
  constructor
  · intro hholds
    have hskip : Builds c₁ (⟨.name word, place⟩ :: ⟨.sign .leftParen, openPlace⟩ :: inside ++
        ⟨.sign .rightParen, closePlace⟩ :: after) c₁ after := by
      refine Builds.skip ?_ closePlace
      exact hholds
    refine (hread ..).2 ?_
    simpa using hskip.trans hend
  · intro hbare hcolumn
    rw [← Bool.not_eq_true]
    intro hholds
    refine ((hread ..).1 hcolumn).not_bare (.inr ?_) hbare
    have hkinds := holdsConstraint_append_close (kindsOf inside) (kindsOf after)
    simp [holdsConstraint, beginsConstraint, hkinds, hholds]

/-! ## Groups in a column list -/

/-- Every parenthesis matches another one. -/
inductive Balanced : List TokenKind → Prop
  | nil : Balanced []
  | token {kind : TokenKind} (hopen : kind ≠ .sign .leftParen) (hclose : kind ≠ .sign .rightParen) :
      Balanced [kind]
  | append {kinds others : List TokenKind} (h : Balanced kinds) (hothers : Balanced others) :
      Balanced (kinds ++ others)
  | enclosed {kinds : List TokenKind} (h : Balanced kinds) :
      Balanced (.sign .leftParen :: (kinds ++ [.sign .rightParen]))

theorem Balanced.plain {kinds : List TokenKind}
    (h : ∀ kind ∈ kinds, kind ≠ .sign .leftParen ∧ kind ≠ .sign .rightParen) : Balanced kinds := by
  induction kinds with
  | nil => exact .nil
  | cons kind kinds ih =>
    obtain ⟨⟨hopen, hclose⟩, hkinds⟩ := List.forall_mem_cons.1 h
    exact (Balanced.token hopen hclose).append (ih hkinds)

/-- Inside of parentheses no list is cut. -/
theorem Balanced.whole {kinds : List TokenKind} (h : Balanced kinds) : Whole cutsClause 1 kinds := by
  induction h with
  | nil => exact .nil
  | token hopen hclose => exact .cons hopen hclose nofun .nil
  | append _ _ ih ihothers => exact ih.append ihothers
  | enclosed _ ih => exact (Whole.enclosed rfl ih).mono

theorem whole_wordWithGroup {word : String} {group : List TokenKind} (h : Balanced group) :
    Whole cutsClause 0 (wordWithGroup word group) :=
  .cons (by simp) (by simp) (fun _ => rfl) (.enclosed rfl h.whole)

/-! ## Texts -/

/-- **A word with a group in parentheses is passed over if no constraint begins in the group.**  At
    every place in the clause of a column the clause is then read as before; and where the column has
    no constraints, only then.  If the parentheses of the group match, it stays in its clause in the
    list of every CREATE TABLE, and the text defines the same table. -/
theorem group_passed_over_iff (word : String) (group : List TokenKind) :
    (∀ c before after inserted, ColumnPlace c before after →
      kindsOf inserted = wordWithGroup word group →
        (holdsConstraint group = false →
          readClause (before ++ (inserted ++ after)) = .ok (.column c)) ∧
        (c.Bare → readClause (before ++ (inserted ++ after)) = .ok (.column c) →
          holdsConstraint group = false)) ∧
    (Balanced group → holdsConstraint group = false → ∀ text l table columns,
      lex text = .ok l → parse text = .ok (.createTable table columns) →
      ∃ opening list s, l.tokens = opening ++ list ∧ kindsOf opening = opensTable table ∧
        splitClauses 0 list = some s ∧
        ∀ c before after, before ++ after ∈ s.first :: s.others → ColumnPlace c before after →
          ∃ lead tail, list = lead ++ (before ++ (after ++ tail)) ∧
            ∀ inserted other, kindsOf inserted = wordWithGroup word group →
              kindsIn other =
                some (kindsOf (opening ++ (lead ++ (before ++ (inserted ++ (after ++ tail)))))) →
              parse other = .ok (.createTable table columns)) := by
  refine ⟨fun c before after inserted h hinserted => h.readClause_wordWithGroup hinserted,
    fun hbalanced hholds text l table columns hlex hparse => ?_⟩
  obtain ⟨l', hlex', htokens⟩ := parse_eq_ok.1 hparse
  obtain rfl : l = l' := Except.ok.inj (hlex.symm.trans hlex')
  obtain ⟨opening, list, s, hsplit, hopening, hs, hinsert⟩ := parseTokens_insert htokens
  refine ⟨opening, list, s, hsplit, hopening, hs, fun c before after hpart hplace => ?_⟩
  obtain ⟨lead, tail, hlist, hread⟩ := hinsert before after hpart
  refine ⟨lead, tail, hlist, fun inserted other hinserted hother => ?_⟩
  have hclause := (hplace.readClause_wordWithGroup hinserted).1 hholds
  exact parse_of_kindsIn hother (hread inserted (hinserted ▸ whole_wordWithGroup hbalanced)
    (hclause.trans hplace.reads.symm))

/-- The end of a clause is a place in it. -/
theorem columnPlace_integer (p q : Position) :
    ColumnPlace (.ofName "a" .integer) [⟨.name "a", p⟩, ⟨.name "INTEGER", q⟩] [] where
  reads := by rfl
  reached := ⟨"a", [⟨.name "INTEGER", q⟩], .integer, [], _, rfl, rfl, .refl _ _⟩
  not_type := Nat.lt_succ_self 1

/-- A list in a list, and words of constraints by which no constraint begins. -/
theorem group_passed_over_iff_nested :
    let group : List TokenKind := [.keyword .not, .name "b", .sign .comma, .sign .leftParen,
      .keyword .primary, .number "1", .sign .comma, .keyword .null, .sign .rightParen]
    Balanced group ∧ holdsConstraint group = false ∧
    parse "CREATE TABLE t (a INTEGER CHECK (NOT b, (PRIMARY 1, NULL)))".toList =
      .ok (.createTable "t" [.ofName "a" .integer]) := by
  intro group
  have hwords : Balanced [.keyword .not, .name "b", .sign .comma] := .plain (by simp)
  have hinner : Balanced [.keyword .primary, .number "1", .sign .comma, .keyword .null] :=
    .plain (by simp)
  have hbalanced : Balanced group := hwords.append hinner.enclosed
  refine ⟨hbalanced, rfl, ?_⟩
  have hkinds : kindsIn "CREATE TABLE t (a INTEGER)".toList = some (opensTable "t" ++
      [.name "a", .name "INTEGER", .sign .rightParen]) := by decide +kernel
  obtain ⟨l, hlex, htokens⟩ := Option.map_eq_some_iff.1 hkinds
  have hparse : (parse "CREATE TABLE t (a INTEGER)".toList).toOption =
      some (.createTable "t" [.ofName "a" .integer]) := by decide +kernel
  obtain ⟨opening, list, s, hsplit, hopening, hs, hclause⟩ :=
    (group_passed_over_iff "CHECK" group).2 hbalanced rfl _ l _ _ (toOption_eq_some.1 hlex)
      (toOption_eq_some.1 hparse)
  -- the list has one clause, which is all of it
  rw [hsplit, kindsOf_append, hopening] at htokens
  obtain ⟨p, _, rfl, hafter⟩ := kindsOf_eq_cons (List.append_cancel_left htokens)
  obtain ⟨q, _, rfl, hclose⟩ := kindsOf_eq_cons hafter
  obtain ⟨r, rfl⟩ := kindsOf_eq_singleton hclose
  cases hs
  obtain ⟨lead, tail, hlist, hinsert⟩ := hclause _ _ [] List.mem_cons_self (columnPlace_integer p q)
  obtain ⟨rfl, rfl⟩ : lead = [] ∧ tail = [⟨.sign .rightParen, r⟩] := by
    rcases lead with _ | ⟨t, _ | ⟨u, _ | ⟨v, lead⟩⟩⟩ <;> simp at hlist ⊢
    exact hlist.symm
  have hother : kindsIn "CREATE TABLE t (a INTEGER CHECK (NOT b, (PRIMARY 1, NULL)))".toList =
      some (opensTable "t" ++ .name "a" :: .name "INTEGER" :: (wordWithGroup "CHECK" group ++
        [.sign .rightParen])) := by decide +kernel
  refine hinsert ((wordWithGroup "CHECK" group).map (⟨·, .start⟩)) _ rfl ?_
  rw [kindsOf_append, hopening]
  exact hother

/-- The parentheses of the group match, but NOT NULL in it is taken for a constraint. -/
theorem checked_column_not_null :
    let group : List TokenKind := [.name "a", .keyword .is, .keyword .not, .keyword .null]
    let tokens : List Token := (wordWithGroup "CHECK" group).map (⟨·, .start⟩)
    let before : List Token := [⟨.name "a", .start⟩, ⟨.name "INTEGER", .start⟩]
    Balanced group ∧ ColumnPlace (.ofName "a" .integer) before [] ∧
    readClause (before ++ (tokens ++ [])) =
      .ok (.column (Column.ofName "a" .integer).asNotNull) ∧
    (parse "CREATE TABLE t (a INTEGER)".toList).toOption =
      some (.createTable "t" [.ofName "a" .integer]) ∧
    (parse "CREATE TABLE t (a INTEGER CHECK (a IS NOT NULL))".toList).toOption =
      some (.createTable "t" [(Column.ofName "a" .integer).asNotNull]) ∧
    (parse "CREATE TABLE t (a INTEGER CHECK (a IN (DEFAULT)))".toList).toOption = none := by
  intro group tokens before
  exact ⟨.plain (by simp [group]), columnPlace_integer _ _, rfl, by decide +kernel,
    by decide +kernel, by decide +kernel⟩

end PocketSql
