/-
  Statements read back from their text.

  * `Statement.Writable`: a statement whose names, literals, lists and counts can be written;
  * `Predicate.exists_spelled`: the pieces of a condition stand for tokens that the grammar derives,
    with the tests and the nesting of the condition;
  * `writes_where`, `writes_order`, `writes_optionalCount`: optional clauses;
  * `writes_select`, …, `writes_statement`: each statement from its pieces;
  * `parse_sql`: the text of a statement parses to the statement.
-/
import PocketSql.Proofs.Token.Parts
import PocketSql.Statement.Reader

namespace PocketSql

/-! ## What can be written -/

/-- A condition of names and literals that can be written, all of it understood. -/
def Predicate.Writable : Predicate → Prop
  | compare column _ value => IsName column ∧ value.isPlain = true
  | isNull column _ => IsName column
  | and left right | or left right => left.Writable ∧ right.Writable
  | not inner => inner.Writable
  | unsupported _ => False

/-- A condition that can be written and stays within the limits of the grammar as it is written. -/
structure Predicate.Admissible (p : Predicate) : Prop where
  writable : p.Writable
  tests_le : p.tests ≤ maxTests
  height_le : p.height ≤ maxNesting

/-- What a SELECT shows can be written: all columns, or some of them by their names. -/
def Projection.Writable : Projection → Prop
  | all => True
  | columns names => names ≠ [] ∧ ∀ name ∈ names, IsName name

/-- A SELECT of names and counts that can be written, with an admissible condition. -/
structure Query.Writable (q : Query) : Prop where
  projection : q.projection.Writable
  table : IsName q.table
  condition : ∀ p ∈ q.condition, p.Admissible
  order : ∀ key ∈ q.order, IsName key.column
  limit : ∀ n ∈ q.limit, n < unsignedLimit
  offset : ∀ n ∈ q.offset, n < unsignedLimit

/-- Values for new rows, as many in each row as there are columns named, if any are. -/
structure WritableRows (columns : Option (List String)) (rows : List (List Value)) : Prop where
  columns_ne_nil : ∀ names ∈ columns, names ≠ [] ∧ ∀ name ∈ names, IsName name
  rows_ne_nil : rows ≠ []
  row_ne_nil : ∀ row ∈ rows, row ≠ []
  plain : ∀ row ∈ rows, ∀ v ∈ row, v.isPlain = true
  arity : ∀ names ∈ columns, ∀ row ∈ rows, row.length = names.length

/-- A SELECT, INSERT, UPDATE, DELETE or DROP TABLE of names, literals and counts that can be
    written, with no list empty that has to have an item. -/
def Statement.Writable : Statement → Prop
  | select query => query.Writable
  | insert table columns rows => IsName table ∧ WritableRows columns rows
  | update table assignments condition => IsName table ∧ assignments ≠ [] ∧
    (∀ a ∈ assignments, IsName a.1 ∧ a.2.isPlain = true) ∧ ∀ p ∈ condition, p.Admissible
  | delete table condition => IsName table ∧ ∀ p ∈ condition, p.Admissible
  | dropTable table _ => IsName table
  | createTable _ _ => False

/-! ## Conditions -/

theorem Predicate.exists_spelled {p : Predicate} (h : p.Writable) :
    ∃ kinds, Spelled p.pieces kinds ∧ Derives .operand kinds p p.tests p.height := by
  induction p with
  | compare column op value =>
    obtain ⟨hcolumn, hvalue⟩ := h
    obtain ⟨kinds, hspells, hliteral⟩ := spells_literal hvalue
    have hop : CompareOp.ofSign? op.sign = some op := by cases op <;> rfl
    exact ⟨_, .name hcolumn (.sign op.sign (.single hspells)), .compare .plain hop hliteral⟩
  | isNull column negated =>
    cases negated with
    | false =>
      exact ⟨_, .name h (.keyword .is (.keyword .null .nil)), .isNull .plain⟩
    | true =>
      exact ⟨_, .name h (.keyword .is (.keyword .not (.keyword .null .nil))), .isNotNull .plain⟩
  | and left right ihl ihr =>
    obtain ⟨ks, hks, hleft⟩ := ihl h.1
    obtain ⟨ls, hls, hright⟩ := ihr h.2
    exact ⟨_, (hks.append (.keyword .and hls)).enclosed,
      .parentheses (.conjunction (.and (.operand hleft) hright))⟩
  | or left right ihl ihr =>
    obtain ⟨ks, hks, hleft⟩ := ihl h.1
    obtain ⟨ls, hls, hright⟩ := ihr h.2
    exact ⟨_, (hks.append (.keyword .or hls)).enclosed,
      .parentheses (.or (.conjunction (.operand hleft)) (.operand hright))⟩
  | not inner ih =>
    obtain ⟨ks, hks, hinner⟩ := ih h
    exact ⟨_, .keyword .not hks, .not hinner⟩
  | unsupported => exact h.elim

/-! ## Optional clauses -/

/-- What may follow a WHERE clause. -/
def afterWhere : List TokenKind :=
  [.keyword .order, .keyword .limit, .keyword .offset, .sign .semicolon]

/-- What may follow an ORDER BY clause. -/
def afterOrder : List TokenKind :=
  [.keyword .limit, .keyword .offset, .sign .semicolon]

theorem writes_where {condition : Option Predicate} (h : ∀ p ∈ condition, p.Admissible) :
    WritesClause .where_ afterWhere (fun tokens => .ok (readWhere tokens)) (wherePieces condition)
      condition := by
  cases condition with
  | none =>
    refine ⟨[], .nil, nofun, fun tokens rest hkinds hrest => ?_⟩
    have hnone : accept? (.keyword .where_) rest = none := hrest.noNext (by decide)
    rw [List.map_eq_nil_iff.1 hkinds, List.nil_append]
    exact congrArg Except.ok (by rw [readWhere, hnone])
  | some p =>
    obtain ⟨hwritable, htests, hheight⟩ := h p rfl
    obtain ⟨kinds, hspelled, hderives⟩ := p.exists_spelled hwritable
    refine ⟨_, .keyword .where_ hspelled, by simp, fun tokens rest hkinds hrest => ?_⟩
    obtain ⟨place, clause, rfl, rfl⟩ := kindsOf_eq_cons hkinds
    have hstop : ∀ t ∈ rest.head?, endsClause t.kind = true := by
      intro t ht
      have hkind := hrest t ht
      simp only [afterWhere, List.mem_cons, List.not_mem_nil, or_false] at hkind
      rcases hkind with hkind | hkind | hkind | hkind <;> rw [hkind] <;> rfl
    have hcut := splitOutside_of_whole hderives.whole hstop
    have hclause : clausePredicate clause = p :=
      clausePredicate_of_spells ⟨_, _, hderives.loosen, htests, hheight⟩
    simp only [List.cons_append, readWhere, accept?_cons, hcut, hclause]

theorem writes_sortKey {key : SortKey} (h : IsName key.column) :
    Writes anything readSortKey key.pieces key := by
  obtain ⟨column, ascending⟩ := key
  cases ascending with
  | true =>
    refine ⟨_, .name h (.keyword .asc .nil), fun tokens rest hkinds _ => ?_⟩
    obtain ⟨place, _, rfl, hlast⟩ := kindsOf_eq_cons hkinds
    obtain ⟨ascPlace, rfl⟩ := kindsOf_eq_singleton hlast
    rfl
  | false =>
    refine ⟨_, .name h (.keyword .desc .nil), fun tokens rest hkinds _ => ?_⟩
    obtain ⟨place, _, rfl, hlast⟩ := kindsOf_eq_cons hkinds
    obtain ⟨descPlace, rfl⟩ := kindsOf_eq_singleton hlast
    rfl

theorem writes_order {order : List SortKey} (h : ∀ key ∈ order, IsName key.column) :
    WritesClause .order afterOrder readOrder (orderPieces order) order := by
  by_cases hnil : order = []
  · subst hnil
    refine ⟨[], .nil, nofun, fun tokens rest hkinds hrest => ?_⟩
    have hnone : accept? (.keyword .order) rest = none := hrest.noNext (by decide)
    rw [List.map_eq_nil_iff.1 hkinds, List.nil_append, readOrder, hnone]
  · obtain ⟨kinds, hspelled, htakes⟩ := writes_list hnil fun key hkey => writes_sortKey (h key hkey)
    have hclause : Spelled (orderPieces order) (.keyword .order :: .keyword .by_ :: kinds) := by
      simpa [orderPieces, hnil] using hspelled.keyword .by_ |>.keyword .order
    refine ⟨_, hclause, by simp, fun tokens rest hkinds hrest => ?_⟩
    obtain ⟨place, _, rfl, hby⟩ := kindsOf_eq_cons hkinds
    obtain ⟨byPlace, keys, rfl, hkeys⟩ := kindsOf_eq_cons hby
    rw [List.cons_append, readOrder, accept?_cons]
    exact bind_eq_ok.2 ⟨_, expect_eq_ok.2 ⟨byPlace, rfl⟩,
      htakes keys rest hkeys (hrest.noNext (by decide))⟩

theorem writes_optionalCount {word : Keyword} {after : List TokenKind} {n : Option Nat}
    (hword : .keyword word ∉ after) (h : ∀ m ∈ n, m < unsignedLimit) :
    WritesClause word after (readOptionalCount word) (countPieces word n) n := by
  cases n with
  | none =>
    refine ⟨[], .nil, nofun, fun tokens rest hkinds hrest => ?_⟩
    have hnone : accept? (.keyword word) rest = none := hrest.noNext hword
    rw [List.map_eq_nil_iff.1 hkinds, List.nil_append, readOptionalCount, hnone]
  | some n =>
    obtain ⟨kinds, hspelled, htakes⟩ := writes_count (h n rfl)
    refine ⟨_, .keyword word hspelled, by simp, fun tokens rest hkinds _ => ?_⟩
    obtain ⟨place, count, rfl, hcount⟩ := kindsOf_eq_cons hkinds
    rw [List.cons_append, readOptionalCount, accept?_cons]
    exact bind_eq_ok.2 ⟨_, htakes count rest hcount trivial, rfl⟩

theorem writes_limit {n : Option Nat} (h : ∀ m ∈ n, m < unsignedLimit) :
    WritesClause .limit [.keyword .offset, .sign .semicolon] (readOptionalCount .limit)
      (countPieces .limit n) n :=
  writes_optionalCount (by decide) h

theorem writes_offset {n : Option Nat} (h : ∀ m ∈ n, m < unsignedLimit) :
    WritesClause .offset [.sign .semicolon] (readOptionalCount .offset) (countPieces .offset n) n :=
  writes_optionalCount (by decide) h

/-! ## SELECT -/

theorem exists_names {names : List String} (hne : names ≠ [])
    (h : ∀ name ∈ names, IsName name) :
    ∃ kinds, Spelled (separated (names.map fun name => [name])) kinds ∧
      plainNames? kinds = some names ∧ Whole (· == .keyword .from_) 0 kinds := by
  induction names with
  | nil => exact absurd rfl hne
  | cons name names ih =>
    have hname := h name List.mem_cons_self
    cases names with
    | nil => exact ⟨[.name name], .name hname .nil, rfl, .plain (by simp)⟩
    | cons next others =>
      obtain ⟨kinds, hspelled, hnames, hwhole⟩ :=
        ih (List.cons_ne_nil next others) fun n hn => h n (List.mem_cons_of_mem name hn)
      refine ⟨.name name :: .sign .comma :: kinds, ?_, ?_, ?_⟩
      · rw [separated_cons]
        exact .name hname (.sign .comma hspelled)
      · rw [plainNames?, hnames]
        · rfl
      · exact .cons (by simp) (by simp) (by simp) (.cons (by simp) (by simp) (by simp) hwhole)

theorem exists_projection {projection : Projection} (h : projection.Writable) :
    ∃ kinds, Spelled projection.pieces kinds ∧ projectionOf kinds = projection ∧
      Whole (· == .keyword .from_) 0 kinds := by
  cases projection with
  | all => exact ⟨[.sign .star], .sign .star .nil, rfl, .plain (by simp)⟩
  | columns names =>
    obtain ⟨kinds, hspelled, hnames, hwhole⟩ := exists_names h.1 h.2
    exact ⟨kinds, hspelled, by rw [projectionOf, hnames], hwhole⟩

/-- What may follow a statement. -/
def afterStatement : List TokenKind :=
  [.sign .semicolon]

theorem writes_select {q : Query} (h : q.Writable) :
    Writes (beginsIn afterStatement) readStatement q.pieces (.select q) := by
  obtain ⟨projection, table, condition, order, limit, offset⟩ := q
  obtain ⟨hprojection, htable, hcondition, horder, hlimit, hoffset⟩ := h
  obtain ⟨shownKinds, hshown, hprojects, hwhole⟩ := exists_projection hprojection
  obtain ⟨whereKinds, hwhere, hwhereHead, htakesWhere⟩ := writes_where hcondition
  obtain ⟨orderKinds, hkeys, horderHead, htakesOrder⟩ := writes_order horder
  obtain ⟨limitKinds, hmost, hlimitHead, htakesLimit⟩ := writes_limit hlimit
  obtain ⟨offsetKinds, hpassed, hoffsetHead, htakesOffset⟩ := writes_offset hoffset
  refine ⟨_, .keyword .select (hshown.append (.keyword .from_ (.name htable
    (((hwhere.append hkeys).append hmost).append hpassed)))), fun tokens rest hkinds hrest => ?_⟩
  obtain ⟨place, _, rfl, htokens⟩ := kindsOf_eq_cons hkinds
  obtain ⟨shown, _, rfl, rfl, hfrom⟩ := kindsOf_eq_append htokens
  obtain ⟨fromPlace, _, rfl, hafterFrom⟩ := kindsOf_eq_cons hfrom
  obtain ⟨tablePlace, _, rfl, hclauses⟩ := kindsOf_eq_cons hafterFrom
  obtain ⟨_, offsetTokens, rfl, hbefore, rfl⟩ := kindsOf_eq_append hclauses
  obtain ⟨_, limitTokens, rfl, hbefore', rfl⟩ := kindsOf_eq_append hbefore
  obtain ⟨whereTokens, orderTokens, rfl, rfl, rfl⟩ := kindsOf_eq_append hbefore'
  -- each clause begins with its word or is left out, so that it ends the one before
  have hend₁ := beginsIn_clause hoffsetHead hrest
  have hend₂ := beginsIn_clause hlimitHead hend₁
  have hend₃ := beginsIn_clause horderHead hend₂
  have hcut : splitOutside (· == .keyword .from_) 0 (shown ++ ⟨.keyword .from_, fromPlace⟩ ::
      ⟨.name table, tablePlace⟩ ::
        (whereTokens ++ (orderTokens ++ (limitTokens ++ (offsetTokens ++ rest))))) =
      (shown, _) := splitOutside_of_whole hwhole fun _ ht => by cases ht; rfl
  have hread₁ := Except.ok.inj (htakesWhere whereTokens _ rfl hend₃)
  have hread₂ := htakesOrder orderTokens _ rfl hend₂
  have hread₃ := htakesLimit limitTokens _ rfl hend₁
  have hread₄ := htakesOffset offsetTokens rest rfl hrest
  simp only [List.cons_append, List.append_assoc, readStatement, readSelect, hcut, readFrom, bind,
    Except.bind, hread₁, hread₂, hread₃, hread₄, hprojects]

/-! ## INSERT -/

theorem writes_insertColumns {columns : Option (List String)}
    (h : ∀ names ∈ columns, names ≠ [] ∧ ∀ name ∈ names, IsName name) :
    Writes (beginsIn [.keyword .values]) readInsertColumns
      ((columns.map enclosedNames).getD []) columns := by
  cases columns with
  | none =>
    refine ⟨[], .nil, fun tokens rest hkinds hrest => ?_⟩
    have hnone : accept? (.sign .leftParen) rest = none := hrest.noNext (by decide)
    rw [List.map_eq_nil_iff.1 hkinds, List.nil_append, readInsertColumns, hnone]
    rfl
  | some names =>
    obtain ⟨hne, hnames⟩ := h names rfl
    obtain ⟨kinds, hspelled, htakes⟩ := writes_parenthesized hne fun name hname =>
      writes_name (hnames name hname) .identifier
    refine ⟨kinds, hspelled, fun tokens rest hkinds _ => ?_⟩
    have hread := htakes tokens rest hkinds trivial
    rw [readInsertColumns, if_pos (opens_of_readParenthesized hread)]
    exact bind_eq_ok.2 ⟨_, hread, rfl⟩

theorem writes_rows {rows : List (List Value)} (hne : rows ≠ []) (hrows : ∀ row ∈ rows, row ≠ [])
    (hplain : ∀ row ∈ rows, ∀ v ∈ row, v.isPlain = true) :
    Writes (noNext (.sign .comma)) (readList (readParenthesized readLiteral))
      (separated (rows.map enclosedValues)) rows :=
  writes_list hne fun row hrow => writes_parenthesized (hrows row hrow) fun v hv =>
    writes_literal (hplain row hrow v hv)

theorem rowsFit_of_arity {columns : Option (List String)} {rows : List (List Value)}
    (h : ∀ names ∈ columns, ∀ row ∈ rows, row.length = names.length) :
    rowsFit columns rows = true := by
  cases columns with
  | none => rfl
  | some names => simpa [rowsFit] using h names rfl

theorem writes_insert {table : String} {columns : Option (List String)} {rows : List (List Value)}
    (htable : IsName table) (h : WritableRows columns rows) :
    Writes (beginsIn afterStatement) readStatement (Statement.insert table columns rows).pieces
      (.insert table columns rows) := by
  obtain ⟨columnKinds, hcolumns, htakesColumns⟩ := writes_insertColumns h.columns_ne_nil
  obtain ⟨rowKinds, hrows, htakesRows⟩ := writes_rows h.rows_ne_nil h.row_ne_nil h.plain
  refine ⟨_, .keyword .insert (.keyword .into (.name htable (hcolumns.append
    (.keyword .values hrows)))), fun tokens rest hkinds hrest => ?_⟩
  obtain ⟨place, _, rfl, htokens⟩ := kindsOf_eq_cons hkinds
  obtain ⟨intoPlace, _, rfl, hafterInto⟩ := kindsOf_eq_cons htokens
  obtain ⟨tablePlace, _, rfl, hafterTable⟩ := kindsOf_eq_cons hafterInto
  obtain ⟨columnTokens, _, rfl, rfl, hvalues⟩ := kindsOf_eq_append hafterTable
  obtain ⟨valuesPlace, rowTokens, rfl, rfl⟩ := kindsOf_eq_cons hvalues
  have hreadColumns := htakesColumns columnTokens
    (⟨.keyword .values, valuesPlace⟩ :: (rowTokens ++ rest)) rfl (beginsIn_cons (by simp))
  have hreadRows := htakesRows rowTokens rest rfl (hrest.noNext (by decide))
  have hfit := rowsFit_of_arity h.arity
  simp only [List.cons_append, List.append_assoc, readStatement, readInsert, bind_eq_ok]
  exact ⟨_, expect_eq_ok.2 ⟨intoPlace, rfl⟩, (table, _), readNameAs_eq_ok.2 ⟨tablePlace, rfl⟩, _,
    hreadColumns, _, expect_eq_ok.2 ⟨valuesPlace, rfl⟩, _, hreadRows, by simp [hfit]⟩

/-! ## UPDATE, DELETE, DROP TABLE -/

theorem writes_assignment {a : String × Value} (hname : IsName a.1) (hplain : a.2.isPlain = true) :
    Writes anything readAssignment (assignmentPieces a) a := by
  obtain ⟨column, v⟩ := a
  obtain ⟨kinds, hspelled, htakes⟩ := writes_literal hplain
  refine ⟨_, .name hname (.sign .eq hspelled), fun tokens rest hkinds _ => ?_⟩
  obtain ⟨place, _, rfl, hafter⟩ := kindsOf_eq_cons hkinds
  obtain ⟨eqPlace, valueTokens, rfl, hvalue⟩ := kindsOf_eq_cons hafter
  have hread := htakes valueTokens rest hvalue trivial
  simp only [List.cons_append, readAssignment, bind_eq_ok]
  exact ⟨(column, _), rfl, _, expect_eq_ok.2 ⟨eqPlace, rfl⟩, _, hread, rfl⟩

theorem writes_update {table : String} {assignments : List (String × Value)}
    {condition : Option Predicate} (htable : IsName table) (hne : assignments ≠ [])
    (hassign : ∀ a ∈ assignments, IsName a.1 ∧ a.2.isPlain = true)
    (hcondition : ∀ p ∈ condition, p.Admissible) :
    Writes (beginsIn afterStatement) readStatement
      (Statement.update table assignments condition).pieces
      (.update table assignments condition) := by
  obtain ⟨assignKinds, hassigned, htakesAssign⟩ := writes_list hne fun a ha =>
    writes_assignment (hassign a ha).1 (hassign a ha).2
  obtain ⟨whereKinds, hwhere, hwhereHead, htakesWhere⟩ := writes_where hcondition
  refine ⟨_, .keyword .update (.name htable (.keyword .set (hassigned.append hwhere))),
    fun tokens rest hkinds hrest => ?_⟩
  obtain ⟨place, _, rfl, htokens⟩ := kindsOf_eq_cons hkinds
  obtain ⟨tablePlace, _, rfl, hafterTable⟩ := kindsOf_eq_cons htokens
  obtain ⟨setPlace, _, rfl, hafterSet⟩ := kindsOf_eq_cons hafterTable
  obtain ⟨assignTokens, whereTokens, rfl, rfl, rfl⟩ := kindsOf_eq_append hafterSet
  have hreadWhere := Except.ok.inj (htakesWhere whereTokens rest rfl (hrest.mono (by decide)))
  have hreadAssign := htakesAssign assignTokens (whereTokens ++ rest) rfl
    ((beginsIn_clause hwhereHead hrest).noNext (by decide))
  simp only [List.cons_append, List.append_assoc, readStatement, readUpdate, bind_eq_ok]
  exact ⟨(table, _), readNameAs_eq_ok.2 ⟨tablePlace, rfl⟩, _, expect_eq_ok.2 ⟨setPlace, rfl⟩, _,
    hreadAssign, by simp [hreadWhere]⟩

theorem writes_delete {table : String} {condition : Option Predicate} (htable : IsName table)
    (hcondition : ∀ p ∈ condition, p.Admissible) :
    Writes (beginsIn afterStatement) readStatement (Statement.delete table condition).pieces
      (.delete table condition) := by
  obtain ⟨whereKinds, hwhere, -, htakesWhere⟩ := writes_where hcondition
  refine ⟨_, .keyword .delete (.keyword .from_ (.name htable hwhere)),
    fun tokens rest hkinds hrest => ?_⟩
  obtain ⟨place, _, rfl, htokens⟩ := kindsOf_eq_cons hkinds
  obtain ⟨fromPlace, _, rfl, hafterFrom⟩ := kindsOf_eq_cons htokens
  obtain ⟨tablePlace, whereTokens, rfl, rfl⟩ := kindsOf_eq_cons hafterFrom
  have hreadWhere := Except.ok.inj (htakesWhere whereTokens rest rfl (hrest.mono (by decide)))
  simp only [List.cons_append, readStatement, readDelete, bind_eq_ok]
  exact ⟨_, expect_eq_ok.2 ⟨fromPlace, rfl⟩, (table, _), readNameAs_eq_ok.2 ⟨tablePlace, rfl⟩,
    by simp [hreadWhere]⟩

theorem writes_drop {table : String} (htable : IsName table) (ifExists : Bool) :
    Writes (beginsIn afterStatement) readStatement (Statement.dropTable table ifExists).pieces
      (.dropTable table ifExists) := by
  cases ifExists with
  | false =>
    refine ⟨_, .keyword .drop (.keyword .table (.name htable .nil)), fun tokens rest hkinds _ => ?_⟩
    obtain ⟨place, _, rfl, htokens⟩ := kindsOf_eq_cons hkinds
    obtain ⟨wordPlace, _, rfl, hafter⟩ := kindsOf_eq_cons htokens
    obtain ⟨tablePlace, rfl⟩ := kindsOf_eq_singleton hafter
    rfl
  | true =>
    refine ⟨_, .keyword .drop (.keyword .table (.keyword .if_ (.keyword .exists_
      (.name htable .nil)))), fun tokens rest hkinds _ => ?_⟩
    obtain ⟨place, _, rfl, htokens⟩ := kindsOf_eq_cons hkinds
    obtain ⟨wordPlace, _, rfl, hafter⟩ := kindsOf_eq_cons htokens
    obtain ⟨ifPlace, _, rfl, hafterIf⟩ := kindsOf_eq_cons hafter
    obtain ⟨existsPlace, _, rfl, hlast⟩ := kindsOf_eq_cons hafterIf
    obtain ⟨tablePlace, rfl⟩ := kindsOf_eq_singleton hlast
    rfl

/-! ## Statements -/

theorem writes_statement {s : Statement} (h : s.Writable) :
    Writes (beginsIn afterStatement) readStatement s.pieces s := by
  cases s with
  | select query => exact writes_select h
  | insert table columns rows => exact writes_insert h.1 h.2
  | update table assignments condition => exact writes_update h.1 h.2.1 h.2.2.1 h.2.2.2
  | delete table condition => exact writes_delete h.1 h.2
  | dropTable table ifExists => exact writes_drop h ifExists
  | createTable => exact h.elim

/-- What may end the text of a statement. -/
def endings : List String :=
  ["", ";", " ;"]

theorem exists_ending {ending : String} (h : ending ∈ endings) :
    ∃ kinds, Ends ending.toList ∧ LexesTo ending.toList kinds ∧
      (kinds = [] ∨ kinds = [.sign .semicolon]) := by
  have hsemicolon : LexesTo [';'] [.sign .semicolon] :=
    lexesTo_delimiter (s := .semicolon) (by decide) lexesTo_nil
  simp only [endings, List.mem_cons, List.not_mem_nil, or_false] at h
  rcases h with rfl | rfl | rfl
  · exact ⟨_, ends_nil, lexesTo_nil, .inl rfl⟩
  · exact ⟨_, ends_cons rfl, hsemicolon, .inr rfl⟩
  · exact ⟨_, ends_cons rfl, lexesTo_blank hsemicolon, .inr rfl⟩

/-- What is written in some layout and ended is parsed, if its tokens are. -/
theorem parse_of_spelled {s : Statement} {pieces : List String} {kinds : List TokenKind}
    {text : List Char} {ending : String} (hspelled : Spelled pieces kinds)
    (hlaid : Laid pieces text) (hending : ending ∈ endings)
    (hread : ∀ tokens rest, kindsOf tokens = kinds → beginsIn afterStatement rest →
      expectEnd rest = .ok () → parseTokens (tokens ++ rest) = .ok s) :
    parse (text ++ ending.toList) = .ok s := by
  obtain ⟨endKinds, hends, hlast, hkinds⟩ := exists_ending hending
  obtain ⟨l, hlex, htokens⟩ := hspelled.lexesTo hlaid hends hlast .start
  obtain ⟨tokens, rest, hsplit, hfirst, hrest⟩ := kindsOf_eq_append htokens
  have hend : beginsIn afterStatement rest ∧ expectEnd rest = .ok () := by
    rcases hkinds with rfl | rfl
    · rw [List.map_eq_nil_iff.1 hrest]
      exact ⟨nofun, rfl⟩
    · obtain ⟨place, rfl⟩ := kindsOf_eq_singleton hrest
      exact ⟨beginsIn_cons (by simp [afterStatement]), rfl⟩
  have hlex' : lex (text ++ ending.toList) = .ok l := hlex
  rw [parse, hlex']
  simp only [hsplit, hread tokens rest hfirst hend.1 hend.2]

/-- **A statement is read back from its text.**  The text of a SELECT, INSERT, UPDATE, DELETE or
    DROP TABLE whose names, literals, lists and counts can be written, and whose condition stays
    within the limits, parses to the statement, with or without a `;` after it. -/
theorem parse_sql {s : Statement} (h : s.Writable) {ending : String} (hending : ending ∈ endings) :
    parse (s.sql ++ ending.toList) = .ok s := by
  obtain ⟨kinds, hspelled, htakes⟩ := writes_statement h
  refine parse_of_spelled hspelled (laid_spaced s.pieces) hending ?_
  intro tokens rest hkinds hrest hend
  rw [parseTokens, bind_eq_ok]
  exact ⟨(s, rest), htakes tokens rest hkinds hrest, bind_eq_ok.2 ⟨(), hend, rfl⟩⟩

/-- A statement with a quote in a text, the lowest integer, and a negation of alternatives. -/
def quotedStatement : Statement :=
  .update "t" [("n", .integer Int64.minValue), ("note", .text "it's")]
    (some (.not (.or (.compare "n" .lt (.integer (-1))) (.isNull "note" true))))

theorem parse_sql_quoted :
    quotedStatement.sql = ("UPDATE t SET n = -9223372036854775808 , note = 'it''s' " ++
      "WHERE NOT ( n < -1 OR note IS NOT NULL )").toList ∧
      quotedStatement.Writable ∧
      parse (quotedStatement.sql ++ ";".toList) = .ok quotedStatement := by
  have ht : IsName "t" := by decide +kernel
  have hn : IsName "n" := by decide +kernel
  have hnote : IsName "note" := by decide +kernel
  have hwritable : quotedStatement.Writable := by
    refine ⟨ht, by decide, ?_, ?_⟩
    · simp [hn, hnote, Value.isPlain]
    · rintro _ ⟨⟩
      exact ⟨⟨⟨hn, rfl⟩, hnote⟩, by decide, by decide⟩
  exact ⟨by decide +kernel, hwritable, parse_sql hwritable (by decide)⟩

end PocketSql
