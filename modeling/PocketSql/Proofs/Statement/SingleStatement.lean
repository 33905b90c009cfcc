/-
  One statement for each text.

  * `plainNames?_clean`, `Derives.clean`: a list of columns and a condition that is understood hold
    no `;`;
  * `Statement.Hides`: the places of a text in which a `;` is passed over as part of a statement;
  * `readStatement_passes`: the reader of statements passes over a `;` in no other place;
  * `parse_single`: a text that is read as a statement holds no `;` before its last token but in
    these places.
-/
import PocketSql.Proofs.Predicate.Clause
import PocketSql.Proofs.Store.Success
import PocketSql.Proofs.Token.Passing

namespace PocketSql

/-! ## Clauses -/

theorem plainNames?_clean {kinds : List TokenKind} {names : List String}
    (h : plainNames? kinds = some names) : .sign .semicolon ∉ kinds := by
  fun_induction plainNames? kinds generalizing names with
  | case1 => simp
  | case2 word rest ih =>
    obtain ⟨others, hothers, -⟩ := Option.map_eq_some_iff.1 h
    simpa using ih hothers
  | case3 => cases h

theorem projectionOf_eq_all {kinds : List TokenKind} (h : .sign .semicolon ∈ kinds) :
    projectionOf kinds = .all := by
  unfold projectionOf
  split
  · next names hnames => exact absurd h (plainNames?_clean hnames)
  · rfl

theorem CompareOp.ne_semicolon_of_ofSign? {s : Sign} {op : CompareOp}
    (h : CompareOp.ofSign? s = some op) : s ≠ .semicolon := by
  rintro rfl
  cases h

theorem Derives.clean {level : GrammarLevel} {ks : List TokenKind} {p : Predicate} {n d : Nat}
    (h : Derives level ks p n d) : .sign .semicolon ∉ ks := by
  induction h with
  | conjunction _ ih | operand _ ih => exact ih
  | or _ _ ih₁ ih₂ | and _ _ ih₁ ih₂ => simp [ih₁, ih₂]
  | not _ ih => simp [ih]
  | parentheses _ ih => simp [ih]
  | isNull hcolumn | isNotNull hcolumn => simp [hcolumn.clean]
  | compare hcolumn hop hliteral =>
    simp [hcolumn.clean, (CompareOp.ne_semicolon_of_ofSign? hop).symm, hliteral.clean]

/-- A clause with a `;` is not understood. -/
theorem clausePredicate_of_semicolon {clause : List Token}
    (h : .sign .semicolon ∈ kindsOf clause) :
    ∃ text, clausePredicate clause = .unsupported text :=
  ⟨_, clausePredicate_of_not_spells fun _ ⟨_, _, hd, _⟩ => hd.clean h⟩

/-! ## Where a `;` is passed over -/

/-- A `;` after these tokens of a text is passed over as part of the statement. -/
inductive Statement.Hides : Statement → List Token → Prop
  /-- It stands in a SELECT before FROM; what is shown is then no list of columns. -/
  | projection {query : Query} {place : Position} {shown : List Token} :
      query.projection = .all →
      (∀ before t after, shown = before ++ t :: after → t.kind = .keyword .from_ →
        openAfter 0 before ≠ 0) →
      Hides (.select query) (⟨.keyword .select, place⟩ :: shown)
  /-- It stands in parentheses of a WHERE clause, which is then not understood. -/
  | condition {statement : Statement} {text : String} {place : Position}
      {head clause : List Token} :
      statement.condition = some (.unsupported text) → openAfter 0 clause ≠ 0 →
      Hides statement (head ++ ⟨.keyword .where_, place⟩ :: clause)
  /-- It stands in the column list of a CREATE TABLE or after it. -/
  | columns {table : String} {columns : List Column} {head rest : List Token} :
      kindsOf head = [.keyword .create, .keyword .table, .name table, .sign .leftParen] →
      Hides (.createTable table columns) (head ++ rest)

section
variable {tokens mid rest : List Token} {statement : Statement} {place : Position}

/-- In its WHERE clause a statement passes over no `;` but those that it hides. -/
theorem readWhere_passes (h : PassesBut statement.Hides tokens mid)
    (hwhere : readWhere mid = (statement.condition, rest)) :
    PassesBut statement.Hides tokens rest := by
  refine h.trans fun head => ?_
  unfold readWhere at hwhere
  split at hwhere
  · obtain ⟨-, rfl⟩ := Prod.mk.inj hwhere
    exact (Passes.refl _).but
  · next after hword =>
    obtain ⟨place, rfl⟩ := accept?_eq_some.1 hword
    obtain ⟨hcondition, rfl⟩ := Prod.mk.inj hwhere
    obtain ⟨happend, hinside, -⟩ := splitOutside_cutsAt endsClause 0 after
    refine .cons (by simp) ⟨_, happend.symm, fun before t others hclause ht => ?_⟩
    have hmem : .sign .semicolon ∈ kindsOf (splitOutside endsClause 0 after).1 := by
      simp [hclause, ht]
    obtain ⟨text, htext⟩ := clausePredicate_of_semicolon hmem
    exact .condition (hcondition.symm.trans (congrArg some htext))
      (hinside before t others hclause (by simp [ht, endsClause]))

theorem readSortKey_clean : Clean readSortKey := by
  intro tokens key rest h
  simp only [readSortKey, bind_eq_ok] at h
  obtain ⟨⟨column, after⟩, hcolumn, h⟩ := h
  have hname : Passes tokens after := readColumnName_clean _ _ _ hcolumn
  dsimp only at h
  split at h
  · next after' hdesc =>
    cases h
    exact hname.trans (accept?_passes (by simp) hdesc)
  · cases h
    cases hasc : accept? (.keyword .asc) after with
    | none => exact hname
    | some after' => exact hname.trans (accept?_passes (by simp) hasc)

theorem readOrder_clean : Clean readOrder := by
  intro tokens keys rest h
  unfold readOrder at h
  split at h
  · cases h
    exact Passes.refl _
  · next after horder =>
    obtain ⟨after', hby, hkeys⟩ := bind_eq_ok.1 h
    exact ((accept?_passes (by simp) horder).trans (expect_passes (by simp) hby)).trans
      (readList_clean readSortKey_clean _ _ _ hkeys)

theorem readOptionalCount_clean (word : Keyword) : Clean (readOptionalCount word) := by
  intro tokens count rest h
  unfold readOptionalCount at h
  split at h
  · cases h
    exact Passes.refl _
  · next after hword =>
    obtain ⟨⟨n, after'⟩, hcount, h⟩ := bind_eq_ok.1 h
    cases h
    exact (accept?_passes (by simp) hword).trans (readCountToken_clean _ _ _ hcount)

theorem readFrom_clean : Clean readFrom := by
  intro tokens table rest h
  unfold readFrom at h
  split at h
  · cases h
    exact (Passes.cons (by simp)).trans (Passes.cons (by simp))
  · cases h

theorem readSelect_passes (h : readSelect tokens = .ok (statement, rest)) :
    PassesBut statement.Hides (⟨.keyword .select, place⟩ :: tokens) rest := by
  obtain ⟨happend, hinside, -⟩ := splitOutside_cutsAt (· == .keyword .from_) 0 tokens
  rcases hsplit : splitOutside (· == .keyword .from_) 0 tokens with ⟨shown, afterShown⟩
  simp only [hsplit] at happend hinside
  simp only [readSelect, hsplit, bind_eq_ok] at h
  obtain ⟨⟨table, afterFrom⟩, hfrom, h⟩ := h
  rcases hwhere : readWhere afterFrom with ⟨condition, afterWhere⟩
  simp only [hwhere] at h
  obtain ⟨⟨order, afterOrder⟩, horder, ⟨limit, afterLimit⟩, hlimit, ⟨offset, after⟩, hoffset,
    h⟩ := h
  cases h
  have hend : Passes afterWhere after :=
    ((readOrder_clean _ _ _ horder).trans (readOptionalCount_clean _ _ _ _ hlimit)).trans
      (readOptionalCount_clean _ _ _ _ hoffset)
  let query : Query := ⟨projectionOf (kindsOf shown), table, condition, order, limit, offset⟩
  have hshown : PassesBut (Statement.select query).Hides (⟨.keyword .select, place⟩ :: tokens)
      afterShown := by
    refine .cons (by simp) ⟨shown, happend.symm, fun before t others hshown ht => ?_⟩
    refine .projection (projectionOf_eq_all (by simp [hshown, ht])) fun b u a hbefore hu => ?_
    exact hinside b u (a ++ t :: others) (by simp [hshown, hbefore]) (by simp [hu])
  have hfrom : PassesBut (Statement.select query).Hides (⟨.keyword .select, place⟩ :: tokens)
      afterFrom := hshown.trans fun _ => (readFrom_clean _ _ _ hfrom).but
  exact (readWhere_passes hfrom hwhere).trans fun _ => hend.but

/-! ## The other statements -/

theorem readInsertColumns_clean : Clean readInsertColumns := by
  intro tokens columns rest h
  unfold readInsertColumns at h
  split at h
  · obtain ⟨⟨names, after⟩, hnames, h⟩ := bind_eq_ok.1 h
    cases h
    exact readParenthesized_clean (readNameAs_clean _) _ _ _ hnames
  · cases h
    exact Passes.refl _

theorem readInsert_clean : Clean readInsert := by
  intro tokens statement rest h
  simp only [readInsert, bind_eq_ok] at h
  obtain ⟨r₁, hinto, ⟨table, r₂⟩, htable, ⟨columns, r₃⟩, hcolumns, r₄, hvalues, ⟨rows, r₅⟩, hrows,
    h⟩ := h
  dsimp only at h
  split at h
  · cases h
    exact (expect_passes (by simp) hinto).trans <| (readNameAs_clean _ _ _ _ htable).trans <|
      (readInsertColumns_clean _ _ _ hcolumns).trans <| (expect_passes (by simp) hvalues).trans <|
      readList_clean (readParenthesized_clean readLiteral_clean) _ _ _ hrows
  · cases h

theorem readAssignment_clean : Clean readAssignment := by
  intro tokens assignment rest h
  simp only [readAssignment, bind_eq_ok] at h
  obtain ⟨⟨column, r₁⟩, hcolumn, r₂, heq, ⟨value, r₃⟩, hvalue, h⟩ := h
  cases h
  exact (readColumnName_clean _ _ _ hcolumn).trans <| (expect_passes (by simp) heq).trans <|
    readLiteral_clean _ _ _ hvalue

theorem readUpdate_passes (h : readUpdate tokens = .ok (statement, rest)) :
    PassesBut statement.Hides (⟨.keyword .update, place⟩ :: tokens) rest := by
  simp only [readUpdate, bind_eq_ok] at h
  obtain ⟨⟨table, r₁⟩, htable, r₂, hset, ⟨assignments, r₃⟩, hassignments, h⟩ := h
  rcases hwhere : readWhere r₃ with ⟨condition, r₄⟩
  simp only [hwhere] at h
  cases h
  have hhead : Passes (⟨.keyword .update, place⟩ :: tokens) r₃ :=
    (Passes.cons (by simp)).trans <| (readNameAs_clean _ _ _ _ htable).trans <|
      (expect_passes (by simp) hset).trans <|
      readList_clean readAssignment_clean _ _ _ hassignments
  exact readWhere_passes hhead.but hwhere

theorem readDelete_passes (h : readDelete tokens = .ok (statement, rest)) :
    PassesBut statement.Hides (⟨.keyword .delete, place⟩ :: tokens) rest := by
  simp only [readDelete, bind_eq_ok] at h
  obtain ⟨r₁, hfrom, ⟨table, r₂⟩, htable, h⟩ := h
  rcases hwhere : readWhere r₂ with ⟨condition, r₃⟩
  simp only [hwhere] at h
  cases h
  have hhead : Passes (⟨.keyword .delete, place⟩ :: tokens) r₂ :=
    (Passes.cons (by simp)).trans <| (expect_passes (by simp) hfrom).trans <|
      readNameAs_clean _ _ _ _ htable
  exact readWhere_passes hhead.but hwhere

theorem expectTable_eq_ok (h : expectTable tokens = .ok rest) :
    ∃ place, tokens = ⟨.keyword .table, place⟩ :: rest := by
  unfold expectTable at h
  split at h
  · next after hafter =>
    cases h
    exact accept?_eq_some.1 hafter
  · cases h

theorem readCreate_passes (h : readCreate tokens = .ok (statement, rest)) :
    PassesBut statement.Hides (⟨.keyword .create, place⟩ :: tokens) rest := by
  simp only [readCreate, readColumnList, bind_eq_ok] at h
  obtain ⟨r₁, htable, ⟨table, r₂⟩, hname, columns, ⟨list, hopen, -⟩, h⟩ := h
  cases h
  obtain ⟨tablePlace, rfl⟩ := expectTable_eq_ok htable
  obtain ⟨namePlace, rfl⟩ := readNameAs_eq_ok.1 hname
  obtain ⟨openPlace, rfl⟩ := expect_eq_ok.1 hopen
  have hlist : PassesBut (fun before => Statement.Hides (.createTable table columns)
      ([⟨.keyword .create, place⟩, ⟨.keyword .table, tablePlace⟩, ⟨.name table, namePlace⟩,
        ⟨.sign .leftParen, openPlace⟩] ++ before)) list [] :=
    ⟨list, (List.append_nil list).symm, fun _ _ _ _ _ => .columns rfl⟩
  exact .cons (by simp) (.cons (by simp) (.cons (by simp) (.cons (by simp) hlist)))

theorem readIfExists_clean : Clean readIfExists := by
  intro tokens ifExists rest h
  unfold readIfExists at h
  split at h
  · cases h
    exact Passes.refl _
  · next after hif =>
    obtain ⟨after', hexists, h⟩ := bind_eq_ok.1 h
    cases h
    exact (accept?_passes (by simp) hif).trans (expect_passes (by simp) hexists)

theorem readDrop_clean : Clean readDrop := by
  intro tokens statement rest h
  simp only [readDrop, bind_eq_ok] at h
  obtain ⟨r₁, htable, ⟨ifExists, r₂⟩, hif, ⟨name, r₃⟩, hname, h⟩ := h
  obtain ⟨place, rfl⟩ := expectTable_eq_ok htable
  cases h
  exact (Passes.cons (by simp)).trans <| (readIfExists_clean _ _ _ hif).trans <|
    readNameAs_clean _ _ _ _ hname

end

/-! ## Texts -/

/-- The reader of statements passes over no `;` but those that the statement hides. -/
theorem readStatement_passes {tokens rest : List Token} {statement : Statement}
    (h : readStatement tokens = .ok (statement, rest)) :
    PassesBut statement.Hides tokens rest := by
  unfold readStatement at h
  split at h
  · exact readSelect_passes h
  · exact ((Passes.cons (by simp)).trans (readInsert_clean _ _ _ h)).but
  · exact readUpdate_passes h
  · exact readDelete_passes h
  · exact readCreate_passes h
  · exact ((Passes.cons (by simp)).trans (readDrop_clean _ _ _ h)).but
  · cases h

theorem expectEnd_eq_ok {tokens : List Token} (h : expectEnd tokens = .ok ()) :
    tokens = [] ∨ ∃ t, tokens = [t] := by
  unfold expectEnd at h
  split at h
  · next hend =>
    cases hsemicolon : accept? (.sign .semicolon) tokens with
    | none => exact .inl (by simpa [hsemicolon] using hend)
    | some rest =>
      obtain ⟨place, rfl⟩ := accept?_eq_some.1 hsemicolon
      obtain rfl : rest = [] := by simpa [hsemicolon] using hend
      exact .inr ⟨_, rfl⟩
  · cases h

/-- **One statement for each text.**  In a text that is read as a statement, a `;` is the last token
    or stands where the statement hides it: before FROM in a SELECT of all columns, in parentheses
    of a WHERE clause that is not understood, or in or after the column list of a CREATE TABLE.  So
    an INSERT or a DROP TABLE is never followed by a second statement. -/
theorem parse_single {text : List Char} {statement : Statement} (h : parse text = .ok statement) :
    ∃ l, lex text = .ok l ∧ ∀ before t after, l.tokens = before ++ t :: after →
      t.kind = .sign .semicolon → after = [] ∨ statement.Hides before := by
  unfold parse at h
  split at h
  · cases h
  · next l hlex =>
    split at h
    · next read hparse =>
      obtain rfl : read = statement := Except.ok.inj h
      simp only [parseTokens, bind_eq_ok] at hparse
      obtain ⟨⟨found, rest⟩, hread, _, hend, hparse⟩ := hparse
      cases hparse
      refine ⟨l, hlex, fun before t after htokens ht => ?_⟩
      obtain ⟨used, hused, hhides⟩ := readStatement_passes hread
      rw [htokens] at hused
      rcases expectEnd_eq_ok hend with rfl | ⟨last, rfl⟩
      · exact .inr (hhides before t after (by simpa using hused.symm) ht)
      · rcases List.eq_nil_or_concat after with rfl | ⟨init, u, rfl⟩
        · exact .inl rfl
        · -- the last token comes after the statement, and all before it is the statement
          have hsplit : (before ++ t :: init) ++ [u] = used ++ [last] := by simpa using hused
          exact .inr (hhides before t init (List.append_inj_left' hsplit rfl).symm ht)
    · cases h

theorem parse_single_delete :
    ∃ l, lex "DELETE FROM t WHERE id = 1;".toList = .ok l ∧ ∀ before t after,
      l.tokens = before ++ t :: after → t.kind = .sign .semicolon → after = [] := by
  have hparse : (parse "DELETE FROM t WHERE id = 1;".toList).toOption =
      some (.delete "t" (some (.compare "id" .eq (.integer 1)))) := by decide +kernel
  obtain ⟨l, hlex, hsemicolons⟩ := parse_single (toOption_eq_some.1 hparse)
  refine ⟨l, hlex, fun before t after htokens ht => ?_⟩
  rcases hsemicolons before t after htokens ht with hlast | hhides
  · exact hlast
  · cases hhides with
    | condition hunsupported _ => cases hunsupported

/-- A second statement is passed over in each of the three places. -/
theorem parse_hides_statement :
    let statementOf := fun text : String => (parse text.toList).toOption
    let kindsIn := fun text : String => (lex text.toList).toOption.map fun l => kindsOf l.tokens
    (statementOf "SELECT 1; SELECT * FROM t" = some (.select ⟨.all, "t", none, [], none, none⟩) ∧
      kindsIn "SELECT 1; SELECT * FROM t" = some [.keyword .select, .number "1", .sign .semicolon,
        .keyword .select, .sign .star, .keyword .from_, .name "t"]) ∧
    (statementOf "DELETE FROM t WHERE (id = 1; DROP TABLE t" =
        some (.delete "t" (some (.unsupported "(id = 1 ; DROP TABLE t"))) ∧
      kindsIn "DELETE FROM t WHERE (id = 1; DROP TABLE t" = some [.keyword .delete,
        .keyword .from_, .name "t", .keyword .where_, .sign .leftParen, .name "id", .sign .eq,
        .number "1", .sign .semicolon, .keyword .drop, .keyword .table, .name "t"]) ∧
    statementOf "CREATE TABLE t (id INT); DROP TABLE users" =
        some (.createTable "t" [Column.ofName "id" .integer]) ∧
      kindsIn "CREATE TABLE t (id INT); DROP TABLE users" = some [.keyword .create,
        .keyword .table, .name "t", .sign .leftParen, .name "id", .name "INT", .sign .rightParen,
        .sign .semicolon, .keyword .drop, .keyword .table, .name "users"] := by
  decide +kernel

end PocketSql
