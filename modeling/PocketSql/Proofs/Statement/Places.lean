/-
  What tokens spell depends on their kinds and not on their places.

  * `unplaced`: tokens with their places forgotten;
  * `Forgets`: a reading gives what another one gives, with the places forgotten; `Forgets.bind`: one
    reading after another;
  * `Placeless`: so does a reader, of tokens whose places are forgotten; `Placeless.list`,
    `Placeless.parenthesized`: lists of items;
  * `readColumnList_forgets`, `readStatement_placeless`: from the readers of the parts of statements,
    those of column lists and of statements;
  * `parseTokens_congr`: so tokens of the same kinds spell the same statement, if they spell one;
    `parse_congr`: and so do texts with tokens of the same kinds.
-/
import PocketSql.Proofs.Predicate.Clause
import PocketSql.Proofs.Token.Kinds
import PocketSql.Statement.Reader

namespace PocketSql

/-- A token at no place of its own. -/
def Token.unplaced (t : Token) : Token :=
  { t with place := .start }

/-- Tokens with their places forgotten. -/
def unplaced (tokens : List Token) : List Token :=
  tokens.map Token.unplaced

@[simp] theorem unplaced_nil : unplaced [] = [] := rfl

@[simp] theorem unplaced_cons (t : Token) (tokens : List Token) :
    unplaced (t :: tokens) = ⟨t.kind, .start⟩ :: unplaced tokens := rfl

@[simp] theorem length_unplaced (tokens : List Token) : (unplaced tokens).length = tokens.length :=
  List.length_map _

@[simp] theorem kindsOf_unplaced (tokens : List Token) :
    kindsOf (unplaced tokens) = kindsOf tokens := by
  simp [kindsOf, unplaced, Token.unplaced]

theorem unplaced_eq_unplaced {tokens others : List Token} (h : kindsOf tokens = kindsOf others) :
    unplaced tokens = unplaced others := by
  have heq : ∀ tokens, unplaced tokens = (kindsOf tokens).map fun kind => ⟨kind, .start⟩ := by
    intro tokens
    rw [List.map_map]
    rfl
  rw [heq, heq, h]

/-- A second reading gives what the first one gives, up to a function that forgets; or both fail. -/
def Forgets {α : Type} (forget : α → α) (x y : Except Fault α) : Prop :=
  y.toOption = x.toOption.map forget

section
variable {α β : Type} {forget : α → α} {forget' : β → β} {x y : Except Fault α}

theorem Forgets.ok (a : α) : Forgets forget (.ok a) (.ok (forget a)) := rfl

theorem Forgets.error (fault fault' : Fault) :
    Forgets forget (.error fault) (.error fault' : Except Fault α) := rfl

theorem Forgets.bind (h : Forgets forget x y) {f f' : α → Except Fault β}
    (hf : ∀ a, Forgets forget' (f a) (f' (forget a))) : Forgets forget' (x >>= f) (y >>= f') := by
  rw [Forgets, toOption_bind, toOption_bind, h]
  cases x with
  | error fault => rfl
  | ok a => exact hf a

end

/-- A reader takes the same from tokens whose places are forgotten. -/
def Placeless {α : Type} (reader : Reader α) : Prop :=
  ∀ tokens, Forgets (Prod.map id unplaced) (reader tokens) (reader (unplaced tokens))

/-! ## Single tokens -/

@[simp] theorem accept?_unplaced (kind : TokenKind) (tokens : List Token) :
    accept? kind (unplaced tokens) = (accept? kind tokens).map unplaced := by
  cases tokens with
  | nil => rfl
  | cons t tokens => by_cases h : t.kind = kind <;> simp [accept?, h]

theorem expect_forgets (kind : TokenKind) (tokens : List Token) :
    Forgets unplaced (expect kind tokens) (expect kind (unplaced tokens)) := by
  rw [expect, expect, accept?_unplaced]
  cases accept? kind tokens with
  | none => exact .error _ _
  | some rest => exact .ok _

theorem readNameAs_placeless (wanted : Wanted) : Placeless (readNameAs wanted) := by
  rintro (_ | ⟨⟨kind, place⟩, tokens⟩)
  · exact .error _ _
  · cases kind with
    | name word => exact .ok _
    | _ => exact .error _ _

theorem readCountToken_placeless : Placeless readCountToken := by
  rintro (_ | ⟨⟨kind, place⟩, tokens⟩)
  · exact .error _ _
  · cases kind with
    | number digits =>
      simp only [readCountToken, unplaced_cons]
      cases readCount digits.toList with
      | none => exact .error _ _
      | some n => exact .ok _
    | _ => exact .error _ _

theorem readNumber_placeless (text : List Char) : Placeless (readNumber text) := by
  intro tokens
  rw [readNumber, readNumber]
  cases Value.ofNumberText? text with
  | none => exact .error _ _
  | some v =>
    cases tokens with
    | nil => exact .ok _
    | cons t rest => exact .ok _

theorem readLiteral_placeless : Placeless readLiteral := by
  rintro (_ | ⟨⟨kind, place⟩, tokens⟩)
  · exact .error _ _
  · cases kind with
    | text value => exact .ok _
    | number digits => exact readNumber_placeless digits.toList (⟨.number digits, place⟩ :: tokens)
    | sign s =>
      cases s with
      | minus =>
        rcases tokens with _ | ⟨⟨kind, place⟩, tokens⟩
        · exact .error _ _
        · cases kind with
          | number digits =>
            exact readNumber_placeless ('-' :: digits.toList) (⟨.number digits, place⟩ :: tokens)
          | _ => exact .error _ _
      | _ => exact .error _ _
    | keyword k =>
      cases k with
      | true_ => exact .ok _
      | false_ => exact .ok _
      | null => exact .ok _
      | _ => exact .error _ _
    | _ => exact .error _ _

theorem readColumnName_placeless : Placeless readColumnName := by
  intro tokens
  refine (readNameAs_placeless _ tokens).bind fun ⟨name, rest⟩ => ?_
  simp only [Prod.map, accept?_unplaced]
  cases accept? (.sign .dot) rest with
  | none => exact .ok _
  | some rest => exact readNameAs_placeless _ rest

/-! ## Lists -/

section
variable {α : Type} {item : Reader α}

theorem Placeless.items (h : Placeless item) (more : Nat) : Placeless (readItems item more) := by
  intro tokens
  induction more generalizing tokens with
  | zero => exact (h tokens).bind fun ⟨x, rest⟩ => .ok _
  | succ more ih =>
    refine (h tokens).bind fun ⟨x, rest⟩ => ?_
    simp only [Prod.map, accept?_unplaced]
    cases accept? (.sign .comma) rest with
    | none => exact .ok _
    | some rest => exact (ih rest).bind fun ⟨xs, rest⟩ => .ok _

theorem Placeless.list (h : Placeless item) : Placeless (readList item) := by
  intro tokens
  simpa only [readList, length_unplaced] using h.items tokens.length tokens

theorem Placeless.parenthesized (h : Placeless item) : Placeless (readParenthesized item) := by
  intro tokens
  refine (expect_forgets _ tokens).bind fun rest => ?_
  refine (h.list rest).bind fun ⟨xs, rest⟩ => ?_
  exact (expect_forgets _ rest).bind fun rest => .ok _

end

theorem splitOutside_unplaced (stops : TokenKind → Bool) (depth : Nat) (tokens : List Token) :
    splitOutside stops depth (unplaced tokens) =
      (unplaced (splitOutside stops depth tokens).1,
        unplaced (splitOutside stops depth tokens).2) := by
  induction tokens generalizing depth with
  | nil => rfl
  | cons t tokens ih =>
    simp only [unplaced_cons, splitOutside, ih]
    split <;> rfl

/-! ## Conditions -/

theorem clausePredicate_congr {clause clause' : List Token} (h : kindsOf clause = kindsOf clause') :
    clausePredicate clause = clausePredicate clause' := by
  have hread : readClause? clause = readClause? clause' :=
    Option.ext fun p => by rw [readClause?_eq_some_iff, readClause?_eq_some_iff, h]
  unfold clausePredicate
  rw [hread, show clause.map Token.kind = clause'.map Token.kind from h]

theorem readWhere_unplaced (tokens : List Token) :
    readWhere (unplaced tokens) = ((readWhere tokens).1, unplaced (readWhere tokens).2) := by
  simp only [readWhere, accept?_unplaced]
  cases accept? (.keyword .where_) tokens with
  | none => rfl
  | some rest =>
    simp only [Option.map_some, splitOutside_unplaced,
      clausePredicate_congr (kindsOf_unplaced (splitOutside endsClause 0 rest).1)]

/-! ## SELECT -/

theorem readSortKey_placeless : Placeless readSortKey := by
  intro tokens
  refine (readColumnName_placeless tokens).bind fun ⟨column, rest⟩ => ?_
  simp only [Prod.map, accept?_unplaced]
  cases accept? (.keyword .desc) rest with
  | some rest => exact .ok _
  | none =>
    cases accept? (.keyword .asc) rest with
    | none => exact .ok _
    | some rest => exact .ok _

theorem readOrder_placeless : Placeless readOrder := by
  intro tokens
  simp only [readOrder, accept?_unplaced]
  cases accept? (.keyword .order) tokens with
  | none => exact .ok _
  | some rest => exact (expect_forgets _ rest).bind readSortKey_placeless.list

theorem readOptionalCount_placeless (word : Keyword) : Placeless (readOptionalCount word) := by
  intro tokens
  simp only [readOptionalCount, accept?_unplaced]
  cases accept? (.keyword word) tokens with
  | none => exact .ok _
  | some rest => exact (readCountToken_placeless rest).bind fun ⟨n, rest⟩ => .ok _

theorem readFrom_placeless : Placeless readFrom := by
  rintro (_ | ⟨⟨kind, place⟩, tokens⟩)
  · exact .error _ _
  · cases kind with
    | keyword k =>
      cases k with
      | from_ =>
        rcases tokens with _ | ⟨⟨kind, place⟩, tokens⟩
        · exact .error _ _
        · cases kind with
          | name table => exact .ok _
          | _ => exact .error _ _
      | _ => exact .error _ _
    | _ => exact .error _ _

theorem readSelect_placeless : Placeless readSelect := by
  intro tokens
  simp only [readSelect, splitOutside_unplaced, kindsOf_unplaced]
  refine (readFrom_placeless _).bind fun ⟨table, rest⟩ => ?_
  simp only [Prod.map, readWhere_unplaced]
  refine (readOrder_placeless _).bind fun ⟨order, rest⟩ => ?_
  refine (readOptionalCount_placeless .limit rest).bind fun ⟨limit, rest⟩ => ?_
  exact (readOptionalCount_placeless .offset rest).bind fun ⟨offset, rest⟩ => .ok _

/-! ## INSERT, UPDATE, DELETE -/

theorem readInsertColumns_placeless : Placeless readInsertColumns := by
  intro tokens
  simp only [readInsertColumns, accept?_unplaced, Option.isSome_map]
  split
  · exact ((readNameAs_placeless _).parenthesized tokens).bind fun ⟨names, rest⟩ =>
      .ok _
  · exact .ok _

theorem readInsert_placeless : Placeless readInsert := by
  intro tokens
  refine (expect_forgets _ tokens).bind fun rest => ?_
  refine (readNameAs_placeless _ rest).bind fun ⟨table, rest⟩ => ?_
  refine (readInsertColumns_placeless rest).bind fun ⟨columns, rest⟩ => ?_
  refine (expect_forgets _ rest).bind fun rest => ?_
  refine (readLiteral_placeless.parenthesized.list rest).bind fun ⟨rows, rest⟩ => ?_
  dsimp only [Prod.map, id_eq]
  split
  · exact .ok _
  · exact .error _ _

theorem readAssignment_placeless : Placeless readAssignment := by
  intro tokens
  refine (readColumnName_placeless tokens).bind fun ⟨column, rest⟩ => ?_
  refine (expect_forgets _ rest).bind fun rest => ?_
  exact (readLiteral_placeless rest).bind fun ⟨value, rest⟩ => .ok _

theorem readUpdate_placeless : Placeless readUpdate := by
  intro tokens
  refine (readNameAs_placeless _ tokens).bind fun ⟨table, rest⟩ => ?_
  refine (expect_forgets _ rest).bind fun rest => ?_
  refine (readAssignment_placeless.list rest).bind fun ⟨assignments, rest⟩ => ?_
  simp only [Prod.map, readWhere_unplaced]
  exact .ok _

theorem readDelete_placeless : Placeless readDelete := by
  intro tokens
  refine (expect_forgets _ tokens).bind fun rest => ?_
  refine (readNameAs_placeless _ rest).bind fun ⟨table, rest⟩ => ?_
  simp only [Prod.map, readWhere_unplaced]
  exact .ok _

/-! ## CREATE TABLE, DROP TABLE -/

theorem readTypeArgs_placeless : Placeless readTypeArgs := by
  intro tokens
  simp only [readTypeArgs, accept?_unplaced, Option.isSome_map]
  split
  · exact readCountToken_placeless.parenthesized tokens
  · exact .ok _

theorem readColumnType_placeless : Placeless readColumnType := by
  rintro (_ | ⟨⟨kind, place⟩, tokens⟩)
  · exact .ok _
  · cases kind with
    | name word =>
      exact (readTypeArgs_placeless tokens).bind fun ⟨args, rest⟩ => .ok _
    | _ => exact .ok _

theorem skipEmptyParens_forgets (tokens : List Token) :
    Forgets unplaced (skipEmptyParens tokens) (skipEmptyParens (unplaced tokens)) := by
  simp only [skipEmptyParens, accept?_unplaced]
  cases accept? (.sign .leftParen) tokens with
  | none => exact .ok _
  | some rest => exact expect_forgets _ rest

theorem readLiteralDefault_placeless (c : Column) : Placeless (readLiteralDefault c) := by
  intro tokens
  refine (readLiteral_placeless tokens).bind fun ⟨v, rest⟩ => ?_
  dsimp only [Prod.map, id_eq]
  cases c.type.coerce c.name v with
  | error cause => exact .error _ _
  | ok v => exact .ok _

theorem readDefault_placeless (c : Column) : Placeless (readDefault c) := by
  rintro (_ | ⟨⟨kind, place⟩, tokens⟩)
  · exact .error _ _
  · have hliteral := readLiteralDefault_placeless c (⟨kind, place⟩ :: tokens)
    cases kind with
    | name word =>
      simp only [readDefault, unplaced_cons]
      split
      · exact (skipEmptyParens_forgets tokens).bind fun rest => .ok _
      · exact hliteral
    | _ => exact hliteral

theorem readReference_placeless : Placeless readReference := by
  intro tokens
  refine (readNameAs_placeless _ tokens).bind fun ⟨table, rest⟩ => ?_
  simp only [Prod.map, accept?_unplaced]
  cases accept? (.sign .leftParen) rest with
  | none => exact .ok _
  | some rest =>
    refine (readNameAs_placeless _ rest).bind fun ⟨column, rest⟩ => ?_
    exact (expect_forgets _ rest).bind fun rest => .ok _

theorem readConstraint_placeless (c : Column) (kind : TokenKind) :
    Placeless (readConstraint c kind) := by
  intro tokens
  unfold readConstraint
  split
  · rw [accept?_unplaced]
    cases accept? (.keyword .key) tokens with
    | none => exact .ok _
    | some rest => exact .ok _
  · rw [accept?_unplaced]
    cases accept? (.keyword .null) tokens with
    | none => exact .ok _
    | some rest => exact .ok _
  · exact .ok _
  · exact (readDefault_placeless c tokens).bind fun ⟨d, rest⟩ => .ok _
  · exact (readReference_placeless tokens).bind fun ⟨r, rest⟩ => .ok _
  · exact .ok _

theorem readConstraintsIn_forgets (c : Column) (steps : Nat) (tokens : List Token) :
    Forgets id (readConstraintsIn c steps tokens) (readConstraintsIn c steps (unplaced tokens)) := by
  induction steps generalizing c tokens with
  | zero => exact .ok _
  | succ steps ih =>
    cases tokens with
    | nil => exact .ok _
    | cons t rest => exact (readConstraint_placeless c t.kind rest).bind fun ⟨c, rest⟩ => ih c rest

theorem readColumn_forgets (tokens : List Token) :
    Forgets id (readColumn tokens) (readColumn (unplaced tokens)) := by
  refine (readNameAs_placeless _ tokens).bind fun ⟨name, rest⟩ => ?_
  refine (readColumnType_placeless rest).bind fun ⟨type, rest⟩ => ?_
  simp only [Prod.map, readConstraints, length_unplaced]
  exact readConstraintsIn_forgets _ _ rest

theorem readForeignKey_forgets (tokens : List Token) :
    Forgets id (readForeignKey tokens) (readForeignKey (unplaced tokens)) := by
  refine (expect_forgets _ tokens).bind fun rest => ?_
  refine ((readNameAs_placeless _).parenthesized rest).bind fun ⟨columns, rest⟩ => ?_
  refine (expect_forgets _ rest).bind fun rest => ?_
  exact (readReference_placeless rest).bind fun ⟨reference, _⟩ => .ok _

theorem readClause_forgets (tokens : List Token) :
    Forgets id (readClause tokens) (readClause (unplaced tokens)) := by
  rcases tokens with _ | ⟨⟨kind, place⟩, tokens⟩
  · exact .error _ _
  · have hnames := (readNameAs_placeless .identifier).parenthesized
    cases kind with
    | keyword k =>
      cases k with
      | primary =>
        refine (expect_forgets _ tokens).bind fun rest => ?_
        exact (hnames rest).bind fun ⟨columns, _⟩ => .ok _
      | unique => exact (hnames tokens).bind fun ⟨columns, _⟩ => .ok _
      | _ => exact .error _ _
    | name word =>
      have hcolumn := readColumn_forgets (⟨.name word, place⟩ :: tokens)
      simp only [readClause, unplaced_cons]
      split
      · exact readForeignKey_forgets tokens
      · split
        · exact .ok _
        · exact hcolumn.bind fun c => .ok _
    | _ => exact .error _ _

theorem readClauses_forgets (rest : List Token) (parts : List (List Token)) :
    Forgets id (readClauses rest parts) (readClauses (unplaced rest) (parts.map unplaced)) := by
  induction parts with
  | nil => exact .ok _
  | cons part parts ih =>
    have hpart := readClause_forgets part
    simp only [List.map_cons, readClauses]
    cases hread : readClause part with
    | error fault =>
      rw [hread] at hpart
      cases hread' : readClause (unplaced part) with
      | error fault' => exact .error _ _
      | ok clause => rw [hread'] at hpart; cases hpart
    | ok clause =>
      rw [hread] at hpart
      rw [toOption_eq_some.1 hpart]
      exact ih.bind fun clauses => .ok _

/-- The parts of a list with their places forgotten. -/
def ClauseSplit.unplaced (s : ClauseSplit) : ClauseSplit :=
  ⟨PocketSql.unplaced s.first, s.others.map PocketSql.unplaced, PocketSql.unplaced s.rest⟩

theorem splitClauses_unplaced (depth : Nat) (tokens : List Token) :
    splitClauses depth (unplaced tokens) =
      (splitClauses depth tokens).map ClauseSplit.unplaced := by
  induction tokens generalizing depth with
  | nil => rfl
  | cons t tokens ih =>
    simp only [unplaced_cons, splitClauses, ih]
    split
    · rfl
    · split
      · cases splitClauses 0 tokens <;> rfl
      · cases splitClauses (depthAfter depth t.kind) tokens <;> rfl

theorem readColumnList_forgets (table : String) (tokens : List Token) :
    Forgets id (readColumnList table tokens) (readColumnList table (unplaced tokens)) := by
  refine (expect_forgets _ tokens).bind fun rest => ?_
  rw [splitClauses_unplaced]
  cases splitClauses 0 rest with
  | none => exact .error _ _
  | some s =>
    refine (readClauses_forgets s.rest (s.first :: s.others)).bind fun clauses => ?_
    dsimp only [id_eq]
    cases applyAll table clauses (clauseColumns clauses) with
    | error fault => exact .error _ _
    | ok columns => exact .ok _

theorem expectTable_forgets (tokens : List Token) :
    Forgets unplaced (expectTable tokens) (expectTable (unplaced tokens)) := by
  simp only [expectTable, accept?_unplaced]
  cases accept? (.keyword .table) tokens with
  | none => exact .error _ _
  | some rest => exact .ok _

theorem readCreate_placeless : Placeless readCreate := by
  intro tokens
  refine (expectTable_forgets tokens).bind fun rest => ?_
  refine (readNameAs_placeless _ rest).bind fun ⟨table, rest⟩ => ?_
  exact (readColumnList_forgets table rest).bind fun columns =>
    .ok _

theorem readIfExists_placeless : Placeless readIfExists := by
  intro tokens
  simp only [readIfExists, accept?_unplaced]
  cases accept? (.keyword .if_) tokens with
  | none => exact .ok _
  | some rest => exact (expect_forgets _ rest).bind fun rest => .ok _

theorem readDrop_placeless : Placeless readDrop := by
  intro tokens
  refine (expectTable_forgets tokens).bind fun rest => ?_
  refine (readIfExists_placeless rest).bind fun ⟨ifExists, rest⟩ => ?_
  exact (readNameAs_placeless _ rest).bind fun ⟨table, rest⟩ => .ok _

/-! ## Statements -/

theorem readStatement_placeless : Placeless readStatement := by
  rintro (_ | ⟨⟨kind, place⟩, tokens⟩)
  · exact .error _ _
  · cases kind with
    | keyword k =>
      cases k with
      | select => exact readSelect_placeless tokens
      | insert => exact readInsert_placeless tokens
      | update => exact readUpdate_placeless tokens
      | delete => exact readDelete_placeless tokens
      | create => exact readCreate_placeless tokens
      | drop => exact readDrop_placeless tokens
      | _ => exact .error _ _
    | _ => exact .error _ _

theorem expectEnd_forgets (tokens : List Token) :
    Forgets id (expectEnd tokens) (expectEnd (unplaced tokens)) := by
  have hrest : (accept? (.sign .semicolon) (unplaced tokens)).getD (unplaced tokens) =
      unplaced ((accept? (.sign .semicolon) tokens).getD tokens) := by
    rw [accept?_unplaced]
    cases accept? (.sign .semicolon) tokens <;> rfl
  unfold expectEnd
  rw [hrest]
  cases (accept? (.sign .semicolon) tokens).getD tokens with
  | nil => exact .ok _
  | cons t rest => exact .error _ _

theorem parseTokens_forgets (tokens : List Token) :
    Forgets id (parseTokens tokens) (parseTokens (unplaced tokens)) := by
  refine (readStatement_placeless tokens).bind fun ⟨statement, rest⟩ => ?_
  exact (expectEnd_forgets rest).bind fun _ => .ok _

/-- Tokens of the same kinds spell the same statement, or none of the two lists spells one. -/
theorem parseTokens_congr {tokens others : List Token} (h : kindsOf tokens = kindsOf others) :
    (parseTokens tokens).toOption = (parseTokens others).toOption := by
  have htokens := parseTokens_forgets tokens
  have hothers := parseTokens_forgets others
  rw [Forgets, Option.map_id, id_eq] at htokens hothers
  rw [← htokens, ← hothers, unplaced_eq_unplaced h]

theorem toOption_parse (text : List Char) :
    (parse text).toOption = (lex text).toOption.bind fun l => (parseTokens l.tokens).toOption := by
  unfold parse
  cases lex text with
  | error fault => rfl
  | ok l =>
    cases hparse : parseTokens l.tokens <;> simp [Except.toOption, hparse]

/-- Texts with the same tokens spell the same statement, or none of them spells one. -/
theorem parse_congr {text text' : List Char} (h : kindsIn text = kindsIn text') :
    (parse text).toOption = (parse text').toOption := by
  rw [toOption_parse, toOption_parse]
  unfold kindsIn at h
  cases hlex : (lex text).toOption with
  | none =>
    rw [hlex, Option.map_none, eq_comm, Option.map_eq_none_iff] at h
    rw [h]
  | some l =>
    rw [hlex, Option.map_some, eq_comm, Option.map_eq_some_iff] at h
    obtain ⟨l', hlex', hkinds⟩ := h
    rw [hlex']
    exact parseTokens_congr hkinds.symm

end PocketSql
