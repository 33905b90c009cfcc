/-
  A statement without its WHERE clause.

  * `HasWhere`: where the clause stands in the tokens of a statement; `RemovesWhere`: without it, a
    reader reads the statement without its condition;
  * `readSelect_removes`, `readUpdate_removes`, `readDelete_removes`, `parseTokens_removes`: every
    statement with a condition has such a clause;
  * `execute_withoutCondition`, `execute_rejected`: what a clause that is not understood does to a
    statement, under each policy;
  * `unsupported_as_absent`: what this says of the text of a statement.
-/
import PocketSql.Proofs.Statement.Places
import PocketSql.Proofs.Statement.SingleStatement
import PocketSql.Proofs.Token.Settling
import PocketSql.Proofs.Table.Lookup

namespace PocketSql

/-- A statement without its condition. -/
def Statement.withoutCondition : Statement → Statement
  | select query => select { query with condition := none }
  | update table assignments _ => update table assignments none
  | delete table _ => delete table none
  | insert table columns rows => insert table columns rows
  | createTable table columns => createTable table columns
  | dropTable table ifExists => dropTable table ifExists

/-! ## The clause in its statement -/

/-- A head, then WHERE with its clause, which ends before the first stop outside of parentheses, and
    a rest. -/
structure HasWhere (tokens head clause rest : List Token) : Prop where
  tokens_eq : ∃ place, tokens = head ++ ⟨.keyword .where_, place⟩ :: (clause ++ rest)
  cuts : CutsAt endsClause 0 (clause ++ rest) clause rest

section
variable {tokens head clause rest left : List Token} {statement : Statement} {p : Predicate}

theorem HasWhere.append (h : HasWhere tokens head clause rest) (lead : List Token) :
    HasWhere (lead ++ tokens) (lead ++ head) clause rest := by
  obtain ⟨⟨place, rfl⟩, hcuts⟩ := h
  exact ⟨⟨place, by rw [List.append_assoc]⟩, hcuts⟩

/-- After the clause stands nothing or a token at which a clause ends. -/
theorem HasWhere.noNext (h : HasWhere tokens head clause rest) {kind : TokenKind}
    (hkind : endsClause kind = false) : noNext kind rest := by
  cases rest with
  | nil => rfl
  | cons t after =>
    obtain ⟨hstop, -⟩ := h.cuts.outside t after rfl
    refine accept?_of_ne ?_ t.place after
    rintro rfl
    cases hkind.symm.trans hstop

theorem readWhere_of_noNext (h : noNext (.keyword .where_) rest) : readWhere rest = (none, rest) := by
  have hnone : accept? (.keyword .where_) rest = none := h
  rw [readWhere, hnone]

theorem HasWhere.readWhere_rest (h : HasWhere tokens head clause rest) :
    readWhere rest = (none, rest) :=
  readWhere_of_noNext (h.noNext rfl)

theorem exists_hasWhere (h : readWhere tokens = (some p, rest)) :
    ∃ clause, HasWhere tokens [] clause rest ∧ p = clausePredicate clause := by
  unfold readWhere at h
  split at h
  · cases h
  · next after hword =>
    obtain ⟨place, rfl⟩ := accept?_eq_some.1 hword
    have hcuts := splitOutside_cutsAt endsClause 0 after
    cases h
    exact ⟨_, ⟨⟨place, by rw [hcuts.append, List.nil_append]⟩, by rwa [hcuts.append]⟩, rfl⟩

/-- Without its clause a reader reads the statement without its condition; and what stands before
    the clause is read as a statement without a condition, up to its end. -/
structure RemovesWhere (read : Reader Statement) (statement : Statement)
    (head rest left : List Token) : Prop where
  without : read (head ++ rest) = .ok (statement.withoutCondition, left)
  alone : ∃ bare, read head = .ok (bare, []) ∧ bare.condition = none

/-- The tokens before a part stops, and the token at which it does, may be followed by others. -/
theorem splitOutside_before {stops : TokenKind → Bool} {depth : Nat} {part : List Token} {t : Token}
    (h : splitOutside stops depth tokens = (part, t :: rest)) (others : List Token) :
    splitOutside stops depth (part ++ t :: others) = (part, t :: others) := by
  induction tokens generalizing depth part with
  | nil => cases h
  | cons u tokens ih =>
    unfold splitOutside at h
    split at h
    · next hstop =>
      cases h
      rw [List.nil_append, splitOutside, if_pos hstop]
    · next hgo =>
      rcases hsplit : splitOutside stops (depthAfter depth u.kind) tokens with ⟨inside, after⟩
      rw [hsplit] at h
      cases h
      rw [List.cons_append, splitOutside, if_neg hgo, ih hsplit]

theorem readFrom_eq_ok {table : String} (h : readFrom tokens = .ok (table, rest)) :
    ∃ fromPlace place,
      tokens = ⟨.keyword .from_, fromPlace⟩ :: ⟨.name table, place⟩ :: rest := by
  unfold readFrom at h
  split at h
  · cases h
    exact ⟨_, _, rfl⟩
  · cases h

theorem readSelect_removes (h : readSelect tokens = .ok (statement, left))
    (hp : statement.condition = some p) :
    ∃ head clause rest, HasWhere tokens head clause rest ∧ p = clausePredicate clause ∧
      RemovesWhere readSelect statement head rest left := by
  have happend := (splitOutside_cutsAt (· == .keyword .from_) 0 tokens).append
  rcases hsplit : splitOutside (· == .keyword .from_) 0 tokens with ⟨shown, afterShown⟩
  simp only [hsplit] at happend
  simp only [readSelect, hsplit, bind_eq_ok] at h
  obtain ⟨⟨table, afterFrom⟩, hfrom, h⟩ := h
  obtain ⟨fromPlace, place, rfl⟩ := readFrom_eq_ok hfrom
  rcases hwhere : readWhere afterFrom with ⟨condition, rest⟩
  simp only [hwhere] at h
  obtain ⟨⟨order, afterOrder⟩, horder, ⟨limit, afterLimit⟩, hlimit, ⟨offset, after⟩, hoffset,
    h⟩ := h
  cases h
  obtain rfl : condition = some p := hp
  obtain ⟨clause, hclause, rfl⟩ := exists_hasWhere hwhere
  refine ⟨shown ++ [⟨.keyword .from_, fromPlace⟩, ⟨.name table, place⟩], clause, rest, ?_, rfl,
    ?_, ?_⟩
  · have hhead := hclause.append (shown ++ [⟨.keyword .from_, fromPlace⟩, ⟨.name table, place⟩])
    rwa [List.append_nil, List.append_assoc, List.cons_append, List.cons_append, List.nil_append,
      happend] at hhead
  · have hshown := splitOutside_before hsplit (⟨.name table, place⟩ :: rest)
    simp only [List.append_assoc, List.cons_append, List.nil_append, readSelect, hshown, readFrom,
      bind_eq_ok]
    exact ⟨_, rfl, by simp only [hclause.readWhere_rest]; exact
      ⟨_, horder, _, hlimit, _, hoffset, rfl⟩⟩
  · have hshown := splitOutside_before hsplit [⟨.name table, place⟩]
    refine ⟨.select ⟨projectionOf (kindsOf shown), table, none, [], none, none⟩, ?_, rfl⟩
    simp only [readSelect, hshown]
    rfl

theorem readAssignment_settles : Settles anything readAssignment := by
  intro tokens assignment rest h
  simp only [readAssignment, bind_eq_ok] at h
  obtain ⟨⟨column, r₁⟩, hcolumn, r₂, hequals, ⟨value, r₃⟩, hvalue, h⟩ := h
  cases h
  obtain ⟨name, rfl, htakesName⟩ := readColumnName_settles _ _ _ hcolumn
  obtain ⟨place, rfl⟩ := expect_eq_ok.1 hequals
  obtain ⟨literal, rfl, htakesValue⟩ := readLiteral_settles _ _ _ hvalue
  refine ⟨name ++ ⟨.sign .eq, place⟩ :: literal, by simp, fun tokens others hkinds _ => ?_⟩
  rw [kindsOf_append] at hkinds
  obtain ⟨first, second, rfl, hfirst, hsecond⟩ := kindsOf_eq_append hkinds
  obtain ⟨place', third, rfl, hthird⟩ := kindsOf_eq_cons hsecond
  have hname := htakesName first (⟨.sign .eq, place'⟩ :: (third ++ others)) hfirst
    (accept?_of_ne (by simp) _ _)
  have hliteral := htakesValue third others hthird trivial
  simp only [readAssignment, bind_eq_ok, List.append_assoc, List.cons_append]
  exact ⟨_, hname, _, expect_eq_ok.2 ⟨place', rfl⟩, _, hliteral, rfl⟩

theorem readUpdate_removes (h : readUpdate tokens = .ok (statement, left))
    (hp : statement.condition = some p) :
    ∃ head clause rest, HasWhere tokens head clause rest ∧ p = clausePredicate clause ∧
      RemovesWhere readUpdate statement head rest left := by
  simp only [readUpdate, bind_eq_ok] at h
  obtain ⟨⟨table, r₁⟩, htable, r₂, hset, ⟨assignments, r₃⟩, hassignments, h⟩ := h
  obtain ⟨place, rfl⟩ := readNameAs_eq_ok.1 htable
  obtain ⟨setPlace, rfl⟩ := expect_eq_ok.1 hset
  rcases hwhere : readWhere r₃ with ⟨condition, rest⟩
  simp only [hwhere] at h
  cases h
  obtain rfl : condition = some p := hp
  obtain ⟨clause, hclause, rfl⟩ := exists_hasWhere hwhere
  obtain ⟨used, rfl, htakes⟩ := readList_settles readAssignment_settles _ _ _ hassignments
  -- the assignments end before every token but a comma
  have hread : ∀ others, noNext (.sign .comma) others → noNext (.keyword .where_) others →
      readUpdate (⟨.name table, place⟩ :: ⟨.keyword .set, setPlace⟩ :: (used ++ others)) =
        .ok (.update table assignments none, others) := by
    intro others hcomma hword
    simp only [readUpdate, bind_eq_ok]
    refine ⟨_, readNameAs_eq_ok.2 ⟨place, rfl⟩, _, expect_eq_ok.2 ⟨setPlace, rfl⟩, _,
      htakes used others rfl hcomma, ?_⟩
    simp only [readWhere_of_noNext hword]
  refine ⟨⟨.name table, place⟩ :: ⟨.keyword .set, setPlace⟩ :: used, clause, left, ?_, rfl, ?_, ?_⟩
  · have hhead := hclause.append (⟨.name table, place⟩ :: ⟨.keyword .set, setPlace⟩ :: used)
    rwa [List.append_nil] at hhead
  · exact hread left (hclause.noNext rfl) (hclause.noNext rfl)
  · have hbare := hread [] rfl rfl
    rw [List.append_nil] at hbare
    exact ⟨_, hbare, rfl⟩

theorem readDelete_removes (h : readDelete tokens = .ok (statement, left))
    (hp : statement.condition = some p) :
    ∃ head clause rest, HasWhere tokens head clause rest ∧ p = clausePredicate clause ∧
      RemovesWhere readDelete statement head rest left := by
  simp only [readDelete, bind_eq_ok] at h
  obtain ⟨r₁, hfrom, ⟨table, r₂⟩, htable, h⟩ := h
  obtain ⟨fromPlace, rfl⟩ := expect_eq_ok.1 hfrom
  obtain ⟨place, rfl⟩ := readNameAs_eq_ok.1 htable
  rcases hwhere : readWhere r₂ with ⟨condition, rest⟩
  simp only [hwhere] at h
  cases h
  obtain rfl : condition = some p := hp
  obtain ⟨clause, hclause, rfl⟩ := exists_hasWhere hwhere
  have hread : ∀ others, noNext (.keyword .where_) others →
      readDelete (⟨.keyword .from_, fromPlace⟩ :: ⟨.name table, place⟩ :: others) =
        .ok (.delete table none, others) := by
    intro others hword
    simp only [readDelete, bind_eq_ok]
    refine ⟨_, expect_eq_ok.2 ⟨fromPlace, rfl⟩, _, readNameAs_eq_ok.2 ⟨place, rfl⟩, ?_⟩
    simp only [readWhere_of_noNext hword]
  refine ⟨[⟨.keyword .from_, fromPlace⟩, ⟨.name table, place⟩], clause, left, ?_, rfl, ?_, ?_⟩
  · exact hclause.append [⟨.keyword .from_, fromPlace⟩, ⟨.name table, place⟩]
  · exact hread left (hclause.noNext rfl)
  · exact ⟨_, hread [] rfl, rfl⟩

theorem readInsert_condition (h : readInsert tokens = .ok (statement, left)) :
    statement.condition = none := by
  simp only [readInsert, bind_eq_ok] at h
  obtain ⟨_, -, ⟨_, _⟩, -, ⟨_, _⟩, -, _, -, ⟨_, _⟩, -, h⟩ := h
  dsimp only at h
  split at h
  · cases h
    rfl
  · cases h

theorem readCreate_condition (h : readCreate tokens = .ok (statement, left)) :
    statement.condition = none := by
  simp only [readCreate, bind_eq_ok] at h
  obtain ⟨_, -, ⟨_, _⟩, -, _, -, h⟩ := h
  cases h
  rfl

theorem readDrop_condition (h : readDrop tokens = .ok (statement, left)) :
    statement.condition = none := by
  simp only [readDrop, bind_eq_ok] at h
  obtain ⟨_, -, ⟨_, _⟩, -, ⟨_, _⟩, -, h⟩ := h
  cases h
  rfl

/-- A statement with a condition is a SELECT, an UPDATE or a DELETE, after its first word. -/
theorem readStatement_removes (h : readStatement tokens = .ok (statement, left))
    (hp : statement.condition = some p) :
    ∃ head clause rest, HasWhere tokens head clause rest ∧ p = clausePredicate clause ∧
      RemovesWhere readStatement statement head rest left := by
  unfold readStatement at h
  split at h
  · next place tokens =>
    obtain ⟨head, clause, rest, hclause, hpredicate, hwithout, halone⟩ := readSelect_removes h hp
    exact ⟨_, clause, rest, hclause.append [⟨.keyword .select, place⟩], hpredicate, hwithout, halone⟩
  · cases (readInsert_condition h).symm.trans hp
  · next place tokens =>
    obtain ⟨head, clause, rest, hclause, hpredicate, hwithout, halone⟩ := readUpdate_removes h hp
    exact ⟨_, clause, rest, hclause.append [⟨.keyword .update, place⟩], hpredicate, hwithout, halone⟩
  · next place tokens =>
    obtain ⟨head, clause, rest, hclause, hpredicate, hwithout, halone⟩ := readDelete_removes h hp
    exact ⟨_, clause, rest, hclause.append [⟨.keyword .delete, place⟩], hpredicate, hwithout, halone⟩
  · cases (readCreate_condition h).symm.trans hp
  · cases (readDrop_condition h).symm.trans hp
  · cases h

theorem parseTokens_eq_ok : parseTokens tokens = .ok statement ↔
    ∃ left, readStatement tokens = .ok (statement, left) ∧ expectEnd left = .ok () := by
  simp only [parseTokens, bind_eq_ok]
  constructor
  · rintro ⟨⟨found, left⟩, hread, ⟨⟩, hend, hfound⟩
    cases hfound
    exact ⟨left, hread, hend⟩
  · rintro ⟨left, hread, hend⟩
    exact ⟨_, hread, (), hend, rfl⟩

/-- The tokens of a statement with a condition have a WHERE clause.  Without it they spell the
    statement without its condition, and what stands before it spells a statement without one. -/
theorem parseTokens_removes (h : parseTokens tokens = .ok statement)
    (hp : statement.condition = some p) :
    ∃ head clause rest, HasWhere tokens head clause rest ∧ p = clausePredicate clause ∧
      parseTokens (head ++ rest) = .ok statement.withoutCondition ∧
      ∃ bare, parseTokens head = .ok bare ∧ bare.condition = none := by
  obtain ⟨left, hread, hend⟩ := parseTokens_eq_ok.1 h
  obtain ⟨head, clause, rest, hclause, hpredicate, hwithout, bare, hbare, hnone⟩ :=
    readStatement_removes hread hp
  exact ⟨head, clause, rest, hclause, hpredicate, parseTokens_eq_ok.2 ⟨left, hwithout, hend⟩, bare,
    parseTokens_eq_ok.2 ⟨[], hbare, rfl⟩, hnone⟩

end

theorem parse_eq_ok {text : List Char} {statement : Statement} : parse text = .ok statement ↔
    ∃ l, lex text = .ok l ∧ parseTokens l.tokens = .ok statement := by
  rw [← toOption_eq_some, toOption_parse, Option.bind_eq_some_iff]
  simp only [toOption_eq_some]

/-- A text spells what tokens of the same kinds spell. -/
theorem parse_of_kindsIn {text : List Char} {tokens : List Token} {statement : Statement}
    (htext : kindsIn text = some (kindsOf tokens)) (h : parseTokens tokens = .ok statement) :
    parse text = .ok statement := by
  obtain ⟨l, hlex, hkinds⟩ := Option.map_eq_some_iff.1 htext
  refine parse_eq_ok.2 ⟨l, toOption_eq_some.1 hlex, ?_⟩
  rw [← toOption_eq_some, parseTokens_congr hkinds, h]
  rfl

/-- A clause that is not understood is kept as its text. -/
theorem clausePredicate_eq_unsupported {clause : List Token} {echo : String}
    (h : clausePredicate clause = .unsupported echo) :
    echo = String.ofList (renderTokens (kindsOf clause)) := by
  by_cases hspells : ∃ q, SpellsClause (kindsOf clause) q
  · obtain ⟨q, hq⟩ := hspells
    obtain ⟨n, d, hderives, -⟩ := id hq
    have hunderstood := hderives.unsupported?_eq_none
    rw [← clausePredicate_of_spells hq, h] at hunderstood
    cases hunderstood
  · rw [clausePredicate_of_not_spells (not_exists.1 hspells)] at h
    cases h
    rfl

/-! ## What the clause does -/

/-- A statement that is run gets as far as its condition. -/
def Statement.ReachesCondition (settings : Settings) (s : Store) : Statement → Prop
  | select query => ∃ t, s.require query.table = .ok t ∧
      ∀ name ∈ query.projection.names ++ query.order.map SortKey.column, name ∈ t.schema.names
  | update table _ _ | delete table _ =>
      settings.mutationMode = .apply ∧ ∃ t, s.require table = .ok t
  | insert .. | createTable .. | dropTable .. => False

section
variable {settings : Settings} {clock : Nat → Timestamp} {statement : Statement} {echo : String}

/-- Under the policy to match all rows, a clause that is not understood counts as none. -/
theorem resolveCondition_matchAll (hpolicy : settings.predicatePolicy = .matchAll)
    (schema : Schema) :
    resolveCondition settings.predicatePolicy schema (some (.unsupported echo)) =
      resolveCondition settings.predicatePolicy schema none := by
  rw [hpolicy]
  rfl

theorem execute_withoutCondition (hpolicy : settings.predicatePolicy = .matchAll)
    (hp : statement.condition = some (.unsupported echo)) :
    Operation.execute settings clock statement =
      Operation.execute settings clock statement.withoutCondition := by
  cases statement with
  | select query =>
    have hselect : ∀ s : Store, s.select settings query =
        s.select settings { query with condition := none } := by
      intro s
      have hcondition : query.condition = some (.unsupported echo) := hp
      simp only [Store.select, hcondition, resolveCondition_matchAll hpolicy]
    simp only [Operation.execute, Statement.withoutCondition, hselect]
  | update table assignments condition =>
    obtain rfl : condition = some (.unsupported echo) := hp
    simp only [Operation.execute, Statement.withoutCondition, Operation.update,
      resolveCondition_matchAll hpolicy]
  | delete table condition =>
    obtain rfl : condition = some (.unsupported echo) := hp
    simp only [Operation.execute, Statement.withoutCondition, Operation.delete,
      resolveCondition_matchAll hpolicy]
  | insert | createTable | dropTable => cases hp

theorem resolveCondition_reject (hpolicy : settings.predicatePolicy = .reject) (schema : Schema) :
    resolveCondition settings.predicatePolicy schema (some (.unsupported echo)) =
      .error (.unsupportedPredicate echo) := by
  rw [hpolicy]
  rfl

theorem execute_rejected {s : Store} (hpolicy : settings.predicatePolicy = .reject)
    (hp : statement.condition = some (.unsupported echo))
    (hreaches : statement.ReachesCondition settings s) :
    Operation.execute settings clock statement s = (.error (.unsupportedPredicate echo), s) := by
  -- an operation that fails leaves the store as it was
  suffices hresult : (Operation.execute settings clock statement s).1 =
      .error (.unsupportedPredicate echo) from
    Prod.ext hresult ((Operation.execute_keeps settings clock statement s).restores _ hresult)
  cases statement with
  | select query =>
    obtain ⟨t, ht, hnames⟩ := hreaches
    obtain ⟨hshown, horder⟩ := List.forall_mem_append.1 hnames
    have hcondition : query.condition = some (.unsupported echo) := hp
    have hselect : s.select settings query = .error (.unsupportedPredicate echo) := by
      simp [Store.select, ht, Schema.requireAll_eq_ok_iff.2 hshown,
        Schema.requireAll_eq_ok_iff.2 horder, hcondition, resolveCondition_reject hpolicy, bind,
        Except.bind]
    simp only [Operation.execute, Operation.read_bind_error hselect]
  | update table assignments condition =>
    obtain rfl : condition = some (.unsupported echo) := hp
    obtain ⟨hmode, t, ht⟩ := hreaches
    simp [Operation.execute, hmode, Operation.update, Operation.read, ht,
      resolveCondition_reject hpolicy, bind]
  | delete table condition =>
    obtain rfl : condition = some (.unsupported echo) := hp
    obtain ⟨hmode, t, ht⟩ := hreaches
    simp [Operation.execute, hmode, Operation.delete, Operation.read, ht,
      resolveCondition_reject hpolicy, bind]
  | insert | createTable | dropTable => exact hreaches.elim

end

/-- **A clause that is not understood is as if absent, or refused.**  If the WHERE clause of a text
    is not understood, then its tokens without WHERE and the clause spell the statement without its
    condition.  Under the policy to match all rows both statements give the same and leave the same
    store, whether changes are applied or simulated, and so do all texts that have these tokens.
    Under the policy to refuse, a statement that gets as far as its condition fails with the text of
    the clause and changes nothing. -/
theorem unsupported_as_absent {text : List Char} {statement : Statement} {echo : String}
    (h : parse text = .ok statement) (hp : statement.condition = some (.unsupported echo)) :
    (∃ l head clause rest, lex text = .ok l ∧ HasWhere l.tokens head clause rest ∧
      (∃ bare, parseTokens head = .ok bare ∧ bare.condition = none) ∧
      echo = String.ofList (renderTokens (kindsOf clause)) ∧
      parseTokens (head ++ rest) = .ok statement.withoutCondition ∧
      ∀ other, kindsIn other = some (kindsOf (head ++ rest)) →
        parse other = .ok statement.withoutCondition ∧
        ∀ (settings : Settings) clock (s : Store), settings.predicatePolicy = .matchAll →
          s.run settings clock text = s.run settings clock other) ∧
    (∀ (settings : Settings) clock s, settings.predicatePolicy = .matchAll →
      Operation.execute settings clock statement s =
        Operation.execute settings clock statement.withoutCondition s) ∧
    ∀ (settings : Settings) clock s, settings.predicatePolicy = .reject →
      statement.ReachesCondition settings s →
      Operation.execute settings clock statement s = (.error (.unsupportedPredicate echo), s) ∧
        s.run settings clock text = (.error (.unsupportedPredicate echo), s) := by
  obtain ⟨l, hlex, hparse⟩ := parse_eq_ok.1 h
  obtain ⟨head, clause, rest, hclause, hpredicate, hwithout, halone⟩ := parseTokens_removes hparse hp
  have hmatch : ∀ (settings : Settings) clock s, settings.predicatePolicy = .matchAll →
      Operation.execute settings clock statement s =
        Operation.execute settings clock statement.withoutCondition s :=
    fun settings clock s hpolicy => congrFun (execute_withoutCondition hpolicy hp) s
  refine ⟨⟨l, head, clause, rest, hlex, hclause, halone,
    clausePredicate_eq_unsupported hpredicate.symm, hwithout, fun other hother => ?_⟩, hmatch, ?_⟩
  · have hsame : parse other = .ok statement.withoutCondition := parse_of_kindsIn hother hwithout
    refine ⟨hsame, fun settings clock s hpolicy => ?_⟩
    rw [Store.run, Operation.executeText_of_ok h, Store.run, Operation.executeText_of_ok hsame,
      hmatch settings clock s hpolicy]
  · intro settings clock s hpolicy hreaches
    have hrejected : Operation.execute settings clock statement s =
        (.error (.unsupportedPredicate echo), s) := execute_rejected hpolicy hp hreaches
    exact ⟨hrejected, (Operation.executeText_of_ok h s).trans hrejected⟩

/-- The parentheses of the clause do not match, and one of them holds the word ORDER. -/
theorem unsupported_as_absent_unbalanced :
    let text := "SELECT a FROM t WHERE a) LIKE (b ORDER) ORDER BY a LIMIT 1;".toList
    let settings : Settings := ⟨.reject, .apply, false, 3⟩
    let clock : Nat → Timestamp := fun _ => ⟨"", .date, 0⟩
    let s := (Store.empty.run settings clock "CREATE TABLE t (a INTEGER)".toList).2
    (parse text).toOption = some (.select ⟨.columns ["a"], "t",
      some (.unsupported "a) LIKE (b ORDER)"), [⟨"a", true⟩], some 1, none⟩) ∧
    (∃ l head clause rest, lex text = .ok l ∧ HasWhere l.tokens head clause rest ∧
      parseTokens (head ++ rest) =
        .ok (.select ⟨.columns ["a"], "t", none, [⟨"a", true⟩], some 1, none⟩)) ∧
    s.run settings clock text = (.error (.unsupportedPredicate "a) LIKE (b ORDER)"), s) := by
  intro text settings clock s
  have hparse : (parse text).toOption = some (.select ⟨.columns ["a"], "t",
      some (.unsupported "a) LIKE (b ORDER)"), [⟨"a", true⟩], some 1, none⟩) := by decide +kernel
  have hfound : (s.require "t").toOption.map (fun t => t.schema.names) = some ["a"] := by
    decide +kernel
  obtain ⟨t, ht, hnames⟩ := Option.map_eq_some_iff.1 hfound
  obtain ⟨⟨l, head, clause, rest, hlex, hclause, -, -, hwithout, -⟩, -, hreject⟩ :=
    unsupported_as_absent (toOption_eq_some.1 hparse) rfl
  refine ⟨hparse, ⟨l, head, clause, rest, hlex, hclause, hwithout⟩, ?_⟩
  refine (hreject settings clock s rfl ⟨t, toOption_eq_some.1 ht, ?_⟩).2
  rw [hnames]
  simp [Projection.names]

end PocketSql
