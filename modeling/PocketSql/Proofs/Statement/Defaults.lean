/-
  The defaults that a CREATE TABLE declares.

  * `readDefault_settles`: a literal is fitted to the type of its column when it is read, and
    `readColumn_settled`: no later constraint changes the type or the default;
  * `readClause_eq_column`: which clauses are those of columns;
  * `applyAll_settled`: nor does a table constraint;
  * `readStatement_createTable`: which statements declare columns;
  * `parse_settled`: so the columns of every statement that a text spells have settled defaults.
-/
import PocketSql.Proofs.Store.Edit
import PocketSql.Proofs.Table.Coercion

namespace PocketSql

/-! ## Columns -/

namespace Column

variable {c : Column}

theorem settled_ofName (name : String) (type : ColumnType) : (Column.ofName name type).Settled :=
  settled_of_none rfl

theorem Settled.asPrimaryKey (h : c.Settled) : c.asPrimaryKey.Settled := h

theorem Settled.asUnique (h : c.Settled) : c.asUnique.Settled := h

theorem Settled.asNotNull (h : c.Settled) : c.asNotNull.Settled := h

theorem Settled.withReference (h : c.Settled) (r : ColumnRef) : (c.withReference r).Settled := h

end Column

theorem readLiteralDefault_settles {c : Column} {d : ColumnDefault} {tokens rest : List Token}
    (h : readLiteralDefault c tokens = .ok (d, rest)) : (c.withDefault d).Settled := by
  simp only [readLiteralDefault, bind_eq_ok] at h
  obtain ⟨⟨v, after⟩, -, h⟩ := h
  dsimp only at h
  split at h
  · next w hw =>
    cases h
    rintro _ ⟨⟩
    exact ColumnType.fixed_of_coerce hw
  · cases h

theorem readDefault_settles {c : Column} {d : ColumnDefault} {tokens rest : List Token}
    (h : readDefault c tokens = .ok (d, rest)) : (c.withDefault d).Settled := by
  unfold readDefault at h
  split at h
  · split at h
    · obtain ⟨after, -, h⟩ := bind_eq_ok.1 h
      cases h
      exact Column.settled_of_now rfl
    · exact readLiteralDefault_settles h
  · exact readLiteralDefault_settles h

theorem readConstraint_settled {c c' : Column} {kind : TokenKind} {tokens rest : List Token}
    (hc : c.Settled) (h : readConstraint c kind tokens = .ok (c', rest)) : c'.Settled := by
  unfold readConstraint at h
  split at h
  · split at h <;> cases h
    · exact hc.asPrimaryKey
    · exact hc
  · split at h <;> cases h
    · exact hc.asNotNull
    · exact hc
  · cases h
    exact hc.asUnique
  · obtain ⟨⟨d, after⟩, hd, h⟩ := bind_eq_ok.1 h
    cases h
    exact readDefault_settles hd
  · obtain ⟨⟨r, after⟩, -, h⟩ := bind_eq_ok.1 h
    cases h
    exact hc.withReference r
  · cases h
    exact hc

theorem readConstraintsIn_settled {c c' : Column} {steps : Nat} {tokens : List Token}
    (hc : c.Settled) (h : readConstraintsIn c steps tokens = .ok c') : c'.Settled := by
  induction steps generalizing c tokens with
  | zero => cases h; exact hc
  | succ steps ih =>
    cases tokens with
    | nil => cases h; exact hc
    | cons t rest =>
      obtain ⟨⟨c₁, after⟩, hfirst, h⟩ := bind_eq_ok.1 h
      exact ih (readConstraint_settled hc hfirst) h

theorem readColumn_settled {c : Column} {tokens : List Token} (h : readColumn tokens = .ok c) :
    c.Settled := by
  simp only [readColumn, bind_eq_ok] at h
  obtain ⟨⟨name, r₁⟩, -, ⟨type, r₂⟩, -, h⟩ := h
  exact readConstraintsIn_settled (Column.settled_ofName name type) h

/-! ## Clauses -/

/-- The clause of a column begins with a name that begins no other clause. -/
theorem readClause_eq_column {c : Column} {tokens : List Token} :
    readClause tokens = .ok (.column c) ↔
      (∃ word place rest, tokens = ⟨.name word, place⟩ :: rest ∧
        ∀ other ∈ ["foreign", "constraint", "check"], isWord other word = false) ∧
      readColumn tokens = .ok c := by
  constructor
  · intro h
    unfold readClause at h
    split at h
    · cases h
    next t rest =>
    split at h
    · simp only [bind_eq_ok] at h
      obtain ⟨_, -, _, -, h⟩ := h
      cases h
    · simp only [bind_eq_ok] at h
      obtain ⟨_, -, h⟩ := h
      cases h
    · next word hkind =>
      obtain ⟨_, place⟩ := t
      obtain rfl : _ = TokenKind.name word := hkind
      split at h
      · simp only [readForeignKey, bind_eq_ok] at h
        obtain ⟨_, -, _, -, _, -, _, -, h⟩ := h
        cases h
      · next hforeign =>
        split at h
        · cases h
        · next hignored =>
          obtain ⟨c', hc, h⟩ := bind_eq_ok.1 h
          cases h
          exact ⟨⟨word, place, rest, rfl, by simpa [hforeign] using hignored⟩, hc⟩
    · cases h
  · rintro ⟨⟨word, place, rest, rfl, hword⟩, hc⟩
    simp only [List.mem_cons, List.not_mem_nil, or_false, forall_eq_or_imp, forall_eq] at hword
    simp only [readClause, hword, Bool.or_self, Bool.false_eq_true, if_false, bind_eq_ok]
    exact ⟨c, hc, rfl⟩

theorem readClause_settled {c : Column} {tokens : List Token}
    (h : readClause tokens = .ok (.column c)) : c.Settled :=
  readColumn_settled (readClause_eq_column.1 h).2

theorem readClauses_settled {rest : List Token} {parts : List (List Token)}
    {clauses : List TableClause} (h : readClauses rest parts = .ok clauses) :
    ∀ c ∈ clauseColumns clauses, c.Settled := by
  induction parts generalizing clauses with
  | nil => cases h; simp [clauseColumns]
  | cons part parts ih =>
    unfold readClauses at h
    split at h
    · cases h
    · next clause hclause =>
      obtain ⟨others, hothers, h⟩ := bind_eq_ok.1 h
      cases h
      have hrest := ih hothers
      cases clause with
      | column c =>
        exact List.forall_mem_cons.2 ⟨readClause_settled hclause, hrest⟩
      | primaryKey | unique | foreignKey | ignored => exact hrest

section
variable {change : Column → Column} {columns columns' : List Column}

theorem modifyColumn_settled (hchange : ∀ c : Column, c.Settled → (change c).Settled)
    {name : String} (hc : ∀ c ∈ columns, c.Settled)
    (h : modifyColumn change name columns = some columns') : ∀ c ∈ columns', c.Settled := by
  induction columns generalizing columns' with
  | nil => cases h
  | cons first columns ih =>
    rw [List.forall_mem_cons] at hc
    unfold modifyColumn at h
    split at h
    · cases h
      exact List.forall_mem_cons.2 ⟨hchange first hc.1, hc.2⟩
    · obtain ⟨rest, hrest, rfl⟩ := Option.map_eq_some_iff.1 h
      exact List.forall_mem_cons.2 ⟨hc.1, ih hc.2 hrest⟩

theorem modifyColumns_settled (hchange : ∀ c : Column, c.Settled → (change c).Settled)
    {table : String} {names : List String} (hc : ∀ c ∈ columns, c.Settled)
    (h : modifyColumns table change names columns = .ok columns') : ∀ c ∈ columns', c.Settled := by
  induction names generalizing columns with
  | nil => cases h; exact hc
  | cons name names ih =>
    unfold modifyColumns at h
    split at h
    · next changed hchanged => exact ih (modifyColumn_settled hchange hc hchanged) h
    · cases h

theorem applyClause_settled {table : String} {clause : TableClause} (hc : ∀ c ∈ columns, c.Settled)
    (h : applyClause table columns clause = .ok columns') : ∀ c ∈ columns', c.Settled := by
  cases clause with
  | primaryKey names => exact modifyColumns_settled (fun _ => Column.Settled.asPrimaryKey) hc h
  | unique names => exact modifyColumns_settled (fun _ => Column.Settled.asUnique) hc h
  | foreignKey names r => exact modifyColumns_settled (fun _ hc => hc.withReference r) hc h
  | column | ignored => cases h; exact hc

theorem applyAll_settled {table : String} {clauses : List TableClause}
    (hc : ∀ c ∈ columns, c.Settled) (h : applyAll table clauses columns = .ok columns') :
    ∀ c ∈ columns', c.Settled := by
  induction clauses generalizing columns with
  | nil => cases h; exact hc
  | cons clause clauses ih =>
    obtain ⟨changed, hchanged, h⟩ := bind_eq_ok.1 h
    exact ih (applyClause_settled hc hchanged) h

end

theorem readColumnList_settled {table : String} {tokens : List Token} {columns : List Column}
    (h : readColumnList table tokens = .ok columns) : ∀ c ∈ columns, c.Settled := by
  obtain ⟨list, -, h⟩ := bind_eq_ok.1 h
  split at h
  · cases h
  · obtain ⟨clauses, hclauses, h⟩ := bind_eq_ok.1 h
    exact applyAll_settled (readClauses_settled hclauses) h

/-! ## Statements -/

/-- A statement is read by the reader of CREATE TABLE, or it is none. -/
theorem readStatement_createTable {statement : Statement} {tokens rest : List Token}
    (h : readStatement tokens = .ok (statement, rest)) :
    (∃ place left, tokens = ⟨.keyword .create, place⟩ :: left ∧
      readCreate left = .ok (statement, rest)) ∨
    ∀ table columns, statement ≠ .createTable table columns := by
  unfold readStatement at h
  split at h
  · simp only [readSelect, bind_eq_ok] at h
    obtain ⟨_, -, _, -, _, -, _, -, h⟩ := h
    cases h
    exact .inr nofun
  · simp only [readInsert, bind_eq_ok] at h
    obtain ⟨_, -, _, -, _, -, _, -, _, -, h⟩ := h
    split at h
    · cases h
      exact .inr nofun
    · cases h
  · simp only [readUpdate, bind_eq_ok] at h
    obtain ⟨_, -, _, -, _, -, h⟩ := h
    cases h
    exact .inr nofun
  · simp only [readDelete, bind_eq_ok] at h
    obtain ⟨_, -, _, -, h⟩ := h
    cases h
    exact .inr nofun
  · next place left => exact .inl ⟨place, left, rfl, h⟩
  · simp only [readDrop, bind_eq_ok] at h
    obtain ⟨_, -, _, -, _, -, h⟩ := h
    cases h
    exact .inr nofun
  · cases h

/-- Only a CREATE TABLE declares columns. -/
theorem readStatement_settled {statement : Statement} {tokens rest : List Token}
    (h : readStatement tokens = .ok (statement, rest)) : ∀ c ∈ statement.columns, c.Settled := by
  rcases readStatement_createTable h with ⟨place, left, rfl, hcreate⟩ | hnone
  · simp only [readCreate, bind_eq_ok] at hcreate
    obtain ⟨_, -, _, -, columns, hcolumns, hcreate⟩ := hcreate
    cases hcreate
    exact readColumnList_settled hcolumns
  · cases statement with
    | createTable table columns => exact absurd rfl (hnone table columns)
    | select | insert | update | delete | dropTable => exact List.forall_mem_nil _

theorem parse_settled {text : List Char} {statement : Statement} (h : parse text = .ok statement) :
    ∀ c ∈ statement.columns, c.Settled := by
  unfold parse at h
  split at h
  · cases h
  split at h
  · next l _ read hparse =>
    obtain rfl : read = statement := Except.ok.inj h
    simp only [parseTokens, bind_eq_ok] at hparse
    obtain ⟨⟨found, rest⟩, hread, _, -, hparse⟩ := hparse
    cases hparse
    exact readStatement_settled hread
  · cases h

end PocketSql
