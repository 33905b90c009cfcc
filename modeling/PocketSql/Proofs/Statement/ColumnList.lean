/-
  Tokens that are inserted into the column list of a CREATE TABLE.

  * `splitOutside_insert`, `splitClauses_insert`: tokens that stay in one piece may be inserted into
    a part of a list, which is then cut at the same commas;
  * `parseTokens_eq_createTable`: the tokens of a CREATE TABLE, from its first ones to the columns
    that its clauses define;
  * `parseTokens_insert`: so a clause may change if it stays in one piece and is read as before.
-/
import PocketSql.Proofs.Statement.ClauseRemoval
import PocketSql.Proofs.Statement.Defaults
import PocketSql.Proofs.Statement.TableRoundTrip

namespace PocketSql

/-! ## Lists -/

/-- Tokens that stay in one piece may be inserted into a part that is cut off. -/
theorem splitOutside_insert {stops : TokenKind → Bool} {depth : Nat}
    {before others part rest inserted : List Token}
    (h : splitOutside stops depth (before ++ others) = (before ++ part, rest))
    (hinserted : Whole stops 0 (kindsOf inserted)) :
    splitOutside stops depth (before ++ (inserted ++ others)) =
      (before ++ (inserted ++ part), rest) := by
  induction before generalizing depth with
  | nil =>
    rw [List.nil_append, List.nil_append] at h
    rw [List.nil_append, hinserted depth inserted others (Nat.zero_le depth) rfl, h]
    rfl
  | cons t before ih =>
    unfold splitOutside at h
    simp only [List.cons_append] at h ⊢
    split at h
    · cases h
    · next hgo =>
      rcases hsplit : splitOutside stops (depthAfter depth t.kind) (before ++ others) with
        ⟨inside, after⟩
      rw [hsplit] at h
      cases h
      rw [splitOutside, if_neg hgo, ih hsplit]

/-- A list is cut at its first comma, and what follows it again, or at its end. -/
theorem splitClauses_eq_some {tokens : List Token} {s : ClauseSplit} :
    splitClauses 0 tokens = some s ↔
      ∃ t rest, splitOutside cutsClause 0 tokens = (s.first, t :: rest) ∧
        (t.kind = .sign .rightParen ∧ s.others = [] ∧ s.rest = rest ∨
          t.kind ≠ .sign .rightParen ∧ ∃ others, splitClauses 0 rest = some others ∧
            s.others = others.first :: others.others ∧ s.rest = others.rest) := by
  obtain ⟨first, others, left⟩ := s
  rw [splitClauses_eq]
  rcases splitOutside cutsClause 0 tokens with ⟨part, _ | ⟨t, rest⟩⟩
  · simp
  · by_cases hclose : t.kind = .sign .rightParen
    · simp only [hclose, if_true, Option.some.injEq, ClauseSplit.mk.injEq]
      constructor
      · rintro ⟨rfl, rfl, rfl⟩
        exact ⟨t, rest, rfl, .inl ⟨hclose, rfl, rfl⟩⟩
      · rintro ⟨_, _, ⟨⟩, ⟨-, rfl, rfl⟩ | ⟨hcomma, -⟩⟩
        · exact ⟨rfl, rfl, rfl⟩
        · exact absurd hclose hcomma
    · simp only [hclose, if_false, Option.map_eq_some_iff, ClauseSplit.mk.injEq]
      constructor
      · rintro ⟨s, hs, rfl, rfl, rfl⟩
        exact ⟨t, rest, rfl, .inr ⟨hclose, s, hs, rfl, rfl⟩⟩
      · rintro ⟨_, _, ⟨⟩, ⟨hclose', -⟩ | ⟨-, s, hs, rfl, rfl⟩⟩
        · exact absurd hclose' hclose
        · exact ⟨s, hs, rfl, rfl, rfl⟩

/-- Tokens that stay in one piece may be inserted into a part of a list. -/
theorem splitClauses_insert {tokens before after : List Token} {earlier later : List (List Token)}
    {s : ClauseSplit} (h : splitClauses 0 tokens = some s)
    (hparts : s.first :: s.others = earlier ++ (before ++ after) :: later) :
    ∃ lead tail, tokens = lead ++ (before ++ (after ++ tail)) ∧
      ∀ inserted, Whole cutsClause 0 (kindsOf inserted) →
        ∃ s', splitClauses 0 (lead ++ (before ++ (inserted ++ (after ++ tail)))) = some s' ∧
          s'.first :: s'.others = earlier ++ (before ++ (inserted ++ after)) :: later ∧
          s'.rest = s.rest := by
  induction earlier generalizing tokens s with
  | nil =>
    obtain ⟨hfirst, hothers⟩ := List.cons.inj hparts
    obtain ⟨t, rest, hsplit, hend⟩ := splitClauses_eq_some.1 h
    have happend := (splitOutside_cutsAt cutsClause 0 tokens).append
    rw [hsplit, hfirst, List.append_assoc] at happend
    refine ⟨[], t :: rest, happend.symm, fun inserted hinserted => ?_⟩
    rw [← happend, hfirst] at hsplit
    have hsplit' : splitOutside cutsClause 0 (before ++ (inserted ++ (after ++ t :: rest))) =
        (before ++ (inserted ++ after), t :: rest) := splitOutside_insert hsplit hinserted
    exact ⟨⟨before ++ (inserted ++ after), s.others, s.rest⟩, splitClauses_eq_some.2
      ⟨t, rest, hsplit', hend⟩, by rw [hothers]; rfl, rfl⟩
  | cons part earlier ih =>
    obtain ⟨hfirst, hothers⟩ := List.cons.inj hparts
    obtain ⟨t, rest, hsplit, ⟨-, hnil, -⟩ | ⟨hcomma, s₁, hrest, hs₁, hleft⟩⟩ :=
      splitClauses_eq_some.1 h
    · rw [hnil] at hothers
      cases earlier <;> cases hothers
    · have happend := (splitOutside_cutsAt cutsClause 0 tokens).append
      rw [hsplit, hfirst] at happend
      obtain ⟨lead, tail, rfl, hinsert⟩ := ih hrest (hs₁ ▸ hothers)
      refine ⟨part ++ t :: lead, tail, by simpa using happend.symm, fun inserted hinserted => ?_⟩
      obtain ⟨s', hs', hparts', hrest'⟩ := hinsert inserted hinserted
      refine ⟨⟨part, s'.first :: s'.others, s'.rest⟩, splitClauses_eq_some.2 ⟨t, _, ?_,
        .inr ⟨hcomma, s', hs', rfl, rfl⟩⟩, by rw [hparts']; rfl, hrest'.trans hleft.symm⟩
      rw [List.append_assoc]
      exact splitOutside_before (hfirst ▸ hsplit) _

/-- A clause may change if it is read as before. -/
theorem readClauses_congr {rest clause clause' : List Token}
    (h : readClause clause' = readClause clause) (earlier later : List (List Token)) :
    readClauses rest (earlier ++ clause' :: later) =
      readClauses rest (earlier ++ clause :: later) := by
  induction earlier with
  | nil => simp only [List.nil_append, readClauses, h]
  | cons part earlier ih => simp only [List.cons_append, readClauses, ih]

/-! ## Statements -/

/-- The first tokens of a CREATE TABLE, up to the parenthesis that opens its list. -/
def opensTable (table : String) : List TokenKind :=
  [.keyword .create, .keyword .table, .name table, .sign .leftParen]

/-- The tokens of a CREATE TABLE are its first ones and a list, the clauses of which are read and
    applied. -/
theorem parseTokens_eq_createTable {tokens : List Token} {table : String}
    {columns : List Column} :
    parseTokens tokens = .ok (.createTable table columns) ↔
      ∃ opening list s clauses, tokens = opening ++ list ∧ kindsOf opening = opensTable table ∧
        splitClauses 0 list = some s ∧
        readClauses s.rest (s.first :: s.others) = .ok clauses ∧
        applyAll table clauses (clauseColumns clauses) = .ok columns := by
  constructor
  · intro h
    obtain ⟨left, hread, -⟩ := parseTokens_eq_ok.1 h
    rcases readStatement_createTable hread with ⟨place, rest, rfl, hcreate⟩ | hnone
    · simp only [readCreate, readColumnList, bind_eq_ok] at hcreate
      obtain ⟨r₁, htable, ⟨name, r₂⟩, hname, _, ⟨list, hopen, hlist⟩, hcreate⟩ := hcreate
      cases hcreate
      obtain ⟨tablePlace, rfl⟩ := expectTable_eq_ok htable
      obtain ⟨namePlace, rfl⟩ := readNameAs_eq_ok.1 hname
      obtain ⟨openPlace, rfl⟩ := expect_eq_ok.1 hopen
      split at hlist
      · cases hlist
      · next s hs =>
        obtain ⟨clauses, hclauses, happly⟩ := bind_eq_ok.1 hlist
        exact ⟨[⟨.keyword .create, place⟩, ⟨.keyword .table, tablePlace⟩, ⟨.name name, namePlace⟩,
          ⟨.sign .leftParen, openPlace⟩], list, s, clauses, rfl, rfl, hs, hclauses, happly⟩
    · exact absurd rfl (hnone table columns)
  · rintro ⟨opening, list, s, clauses, rfl, hopening, hs, hclauses, happly⟩
    obtain ⟨place, _, rfl, hwords⟩ := kindsOf_eq_cons hopening
    obtain ⟨tablePlace, _, rfl, hname⟩ := kindsOf_eq_cons hwords
    obtain ⟨namePlace, _, rfl, hopen⟩ := kindsOf_eq_cons hname
    obtain ⟨openPlace, rfl⟩ := kindsOf_eq_singleton hopen
    have hlist : readColumnList table (⟨.sign .leftParen, openPlace⟩ :: list) = .ok columns := by
      refine bind_eq_ok.2 ⟨list, expect_eq_ok.2 ⟨openPlace, rfl⟩, ?_⟩
      rw [hs]
      exact bind_eq_ok.2 ⟨clauses, hclauses, happly⟩
    refine parseTokens_eq_ok.2 ⟨[], ?_, rfl⟩
    exact bind_eq_ok.2 ⟨_, rfl, bind_eq_ok.2 ⟨(table, _), readNameAs_eq_ok.2 ⟨namePlace, rfl⟩,
      bind_eq_ok.2 ⟨columns, hlist, rfl⟩⟩⟩

/-- A clause of a CREATE TABLE may change if it stays in one piece and is read as before. -/
theorem parseTokens_insert {tokens : List Token} {table : String} {columns : List Column}
    (h : parseTokens tokens = .ok (.createTable table columns)) :
    ∃ opening list s, tokens = opening ++ list ∧ kindsOf opening = opensTable table ∧
      splitClauses 0 list = some s ∧
      ∀ before after, before ++ after ∈ s.first :: s.others →
        ∃ lead tail, list = lead ++ (before ++ (after ++ tail)) ∧
          ∀ inserted, Whole cutsClause 0 (kindsOf inserted) →
            readClause (before ++ (inserted ++ after)) = readClause (before ++ after) →
            parseTokens (opening ++ (lead ++ (before ++ (inserted ++ (after ++ tail))))) =
              .ok (.createTable table columns) := by
  obtain ⟨opening, list, s, clauses, hsplit, hopening, hs, hclauses, happly⟩ :=
    parseTokens_eq_createTable.1 h
  refine ⟨opening, list, s, hsplit, hopening, hs, fun before after hpart => ?_⟩
  obtain ⟨earlier, later, hparts⟩ := List.append_of_mem hpart
  obtain ⟨lead, tail, hlist, hinsert⟩ := splitClauses_insert hs hparts
  refine ⟨lead, tail, hlist, fun inserted hwhole hclause => ?_⟩
  obtain ⟨s', hs', hparts', hrest⟩ := hinsert inserted hwhole
  have hclauses' : readClauses s'.rest (s'.first :: s'.others) = .ok clauses := by
    rw [hrest, hparts', readClauses_congr hclause, ← hparts, hclauses]
  exact parseTokens_eq_createTable.2
    ⟨opening, _, s', clauses, rfl, hopening, hs', hclauses', happly⟩

end PocketSql
