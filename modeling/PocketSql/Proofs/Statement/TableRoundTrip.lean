/-
  Table definitions read back from their text.

  * `ColumnSpec`: a column as it may be written, `ColumnSpec.column`: the column that it stands for;
  * `exists_constraint`, `exists_constraints`: each constraint is read from its pieces, and so are
    constraints one after the other, by induction;
  * `ColumnSpec.fold_eq_column`: constraints make the same column in every order;
  * `splitClauses_eq`, `exists_columns`: the columns of a list are cut apart again;
  * `parse_createTable`: the text of a CREATE TABLE parses to its columns.
-/
import Mathlib.Data.List.Perm.Basic
import PocketSql.Proofs.Statement.RoundTrip
import PocketSql.Proofs.Statement.TypeText
import PocketSql.Proofs.Table.Admission

namespace PocketSql

/-! ## Columns as they are written -/

/-- A default fitted to a type. -/
def ColumnDefault.fitted (type : ColumnType) (column : String) : ColumnDefault → ColumnDefault
  | literal v => literal (type.fitted column v)
  | now => now

/-- A constraint whose default is fitted to a type. -/
def ColumnConstraint.fitted (type : ColumnType) (column : String) :
    ColumnConstraint → ColumnConstraint
  | default d => default (d.fitted type column)
  | k => k

/-- A column as it may be written: a name, a type by a name and arguments, and constraints. -/
structure ColumnSpec where
  name : String
  typeName : String
  args : List Nat
  primaryKey : Bool
  unique : Bool
  notNull : Bool
  reference : Option ColumnRef
  /-- The default as it is written, before it is fitted to the type. -/
  default : Option ColumnDefault

namespace ColumnSpec

/-- The type of the column. -/
def type (s : ColumnSpec) : ColumnType :=
  .ofName s.typeName s.args

/-- The constraints of the column. -/
def constraints (s : ColumnSpec) : List ColumnConstraint :=
  (if s.primaryKey then [.primaryKey] else []) ++ (if s.unique then [.unique] else []) ++
    (if s.notNull then [.notNull] else []) ++
    (s.reference.map ColumnConstraint.references).toList ++
    (s.default.map ColumnConstraint.default).toList

/-- The column: a primary key is unique and not null, and the default is fitted to the type. -/
def column (s : ColumnSpec) : Column where
  name := s.name
  type := s.type
  primaryKey := s.primaryKey
  unique := s.unique || s.primaryKey
  nullable := !(s.notNull || s.primaryKey)
  reference := s.reference
  default := s.default.map (·.fitted s.type s.name)

/-- Names and literals that can be written, the column having no name that begins another clause and
    a default that its type admits. -/
structure Writable (s : ColumnSpec) : Prop where
  name : IsName s.name
  not_clause : ∀ word ∈ ["foreign", "constraint", "check"], isWord word s.name = false
  typeName : IsName s.typeName
  args : ∀ n ∈ s.args, n < unsignedLimit
  reference : ∀ r ∈ s.reference, IsName r.table ∧ IsName r.column
  default : ∀ v, s.default = some (.literal v) → v.isPlain = true ∧ s.type.Admits s.name v

/-! ### Constraints in any order -/

/-- The column with a constraint, its default fitted to the type. -/
def fold (s : ColumnSpec) (c : Column) (k : ColumnConstraint) : Column :=
  (k.fitted s.type s.name).apply c

/-- Two constraints of one column may change places. -/
theorem fold_comm (s : ColumnSpec) {j k : ColumnConstraint} (hj : j ∈ s.constraints)
    (hk : k ∈ s.constraints) (c : Column) : s.fold (s.fold c j) k = s.fold (s.fold c k) j := by
  have href : ∀ r, ColumnConstraint.references r ∈ s.constraints → s.reference = some r := by
    intro r hr
    simpa [constraints] using hr
  have hdefault : ∀ d, ColumnConstraint.default d ∈ s.constraints → s.default = some d := by
    intro d hd
    simpa [constraints] using hd
  cases j with
  | primaryKey | unique | notNull => cases k <;> rfl
  | references r =>
    cases k with
    | references r' =>
      obtain rfl : r = r' := Option.some.inj ((href r hj).symm.trans (href r' hk))
      rfl
    | primaryKey | unique | notNull | default => rfl
  | default d =>
    cases k with
    | default d' =>
      obtain rfl : d = d' := Option.some.inj ((hdefault d hj).symm.trans (hdefault d' hk))
      rfl
    | primaryKey | unique | notNull | references => rfl

theorem foldl_constraints (s : ColumnSpec) :
    s.constraints.foldl s.fold (.ofName s.name s.type) = s.column := by
  unfold constraints column fold
  -- the type stays closed, whatever it is
  generalize s.type = type
  obtain ⟨name, typeName, args, primaryKey, unique, notNull, reference, default⟩ := s
  cases primaryKey <;> cases unique <;> cases notNull <;> cases reference <;> cases default <;> rfl

theorem fold_eq_column (s : ColumnSpec) {order : List ColumnConstraint}
    (h : order.Perm s.constraints) : order.foldl s.fold (.ofName s.name s.type) = s.column := by
  rw [h.foldl_eq' fun j hj k hk c => s.fold_comm (h.subset hj) (h.subset hk) c]
  exact s.foldl_constraints

end ColumnSpec

/-! ## Single constraints -/

/-- A constraint of names and literals that can be written, with a default that a type admits. -/
def ColumnConstraint.Writable (type : ColumnType) (column : String) : ColumnConstraint → Prop
  | references r => IsName r.table ∧ IsName r.column
  | default (.literal v) => v.isPlain = true ∧ type.Admits column v
  | _ => True

theorem ColumnSpec.Writable.constraint {s : ColumnSpec} (h : s.Writable) {k : ColumnConstraint}
    (hk : k ∈ s.constraints) : k.Writable s.type s.name := by
  cases k with
  | primaryKey | unique | notNull => trivial
  | references r => exact h.reference r (by simpa [ColumnSpec.constraints] using hk)
  | default d =>
    cases d with
    | now => trivial
    | literal v => exact h.default v (by simpa [ColumnSpec.constraints] using hk)

theorem spells_now : Spells "NOW()".toList
    [.name "NOW", .sign .leftParen, .sign .rightParen] := by
  have hnow : IsName "NOW" := by decide +kernel
  refine spells_of_laid (.name hnow (.sign .leftParen (.sign .rightParen .nil))) ?_
  exact .before (s := .leftParen) (by decide) (.after (s := .leftParen) (by decide) .single)

/-- A literal begins with no name, so that it is not taken for one of the present instant. -/
theorem readDefault_literal {c : Column} {used : List Token} {v w : Value}
    (h : SpellsLiteral (kindsOf used) v) (hfits : c.type.coerce c.name v = .ok w)
    (rest : List Token) : readDefault c (used ++ rest) = .ok (.literal w, rest) := by
  have hliteral : readLiteralDefault c (used ++ rest) = .ok (.literal w, rest) := by
    rw [readLiteralDefault, bind_eq_ok]
    exact ⟨_, readLiteral_spells h, by simp [hfits]⟩
  rw [← hliteral]
  unfold readDefault
  split
  · next word place others heq =>
    have hread : readLiteral (used ++ rest) = .ok (v, rest) := readLiteral_spells h
    rw [heq] at hread
    cases hread
  · rfl

/-- A constraint is read from its pieces, and is not cut. -/
theorem exists_constraint {type : ColumnType} {name : String} {k : ColumnConstraint}
    (h : k.Writable type name) :
    ∃ word kinds, Spelled k.pieces (.keyword word :: kinds) ∧
      Whole cutsClause 0 (.keyword word :: kinds) ∧
      ∀ c tokens rest, c.type = type → c.name = name → kindsOf tokens = kinds →
        readConstraint c (.keyword word) (tokens ++ rest) =
          .ok ((k.fitted type name).apply c, rest) := by
  cases k with
  | primaryKey =>
    refine ⟨.primary, [.keyword .key], .keyword .primary (.keyword .key .nil), ?_, ?_⟩
    · exact .uncut cutsClause_uncut (by simp [isCut, endsClause])
    · intro c tokens rest _ _ hkinds
      obtain ⟨place, rfl⟩ := kindsOf_eq_singleton hkinds
      rfl
  | unique =>
    refine ⟨.unique, [], .keyword .unique .nil, ?_, ?_⟩
    · exact .uncut cutsClause_uncut (by simp [isCut, endsClause])
    · intro c tokens rest _ _ hkinds
      rw [List.map_eq_nil_iff.1 hkinds]
      rfl
  | notNull =>
    refine ⟨.not, [.keyword .null], .keyword .not (.keyword .null .nil), ?_, ?_⟩
    · exact .uncut cutsClause_uncut (by simp [isCut, endsClause])
    · intro c tokens rest _ _ hkinds
      obtain ⟨place, rfl⟩ := kindsOf_eq_singleton hkinds
      rfl
  | references r =>
    obtain ⟨htable, hcolumn⟩ := h
    have hinside : Spelled [r.column] [.name r.column] := .name hcolumn .nil
    refine ⟨.references, _, .keyword .references (.name htable hinside.enclosed), ?_, ?_⟩
    · refine .cons (by simp) (by simp) (fun _ => rfl) ?_
      exact .cons (by simp) (by simp) (fun _ => rfl) (.enclosed rfl (.plain (by simp)))
    · intro c tokens rest _ _ hkinds
      obtain ⟨tablePlace, _, rfl, hafterTable⟩ := kindsOf_eq_cons hkinds
      obtain ⟨openPlace, _, rfl, hafterOpen⟩ := kindsOf_eq_cons hafterTable
      obtain ⟨columnPlace, _, rfl, hclose⟩ := kindsOf_eq_cons hafterOpen
      obtain ⟨closePlace, rfl⟩ := kindsOf_eq_singleton hclose
      rfl
  | default d =>
    cases d with
    | now =>
      refine ⟨.default, _, .keyword .default (.single spells_now), ?_, ?_⟩
      · refine .cons (by simp) (by simp) (fun _ => rfl) ?_
        exact .cons (by simp) (by simp) (fun _ => rfl) (.enclosed rfl .nil)
      · intro c tokens rest _ _ hkinds
        obtain ⟨namePlace, _, rfl, hafterName⟩ := kindsOf_eq_cons hkinds
        obtain ⟨openPlace, _, rfl, hclose⟩ := kindsOf_eq_cons hafterName
        obtain ⟨closePlace, rfl⟩ := kindsOf_eq_singleton hclose
        rfl
    | literal v =>
      obtain ⟨hplain, hadmits⟩ := h
      obtain ⟨kinds, hspells, hliteral⟩ := spells_literal hplain
      refine ⟨.default, kinds, .keyword .default (.single hspells), ?_, ?_⟩
      · exact .cons (by simp) (by simp) (fun _ => rfl) (.uncut cutsClause_uncut hliteral.uncut)
      · intro c tokens rest htype hname hkinds
        have hfits : c.type.coerce c.name v = .ok (type.fitted name v) := by
          rw [htype, hname]
          exact ColumnType.coerce_eq_ok_iff.2 ⟨hadmits, rfl⟩
        have hread := readDefault_literal (c := c) (hkinds ▸ hliteral) hfits rest
        simp only [readConstraint, bind_eq_ok]
        exact ⟨_, hread, rfl⟩

/-! ## Columns -/

theorem type_apply (c : Column) (k : ColumnConstraint) : (k.apply c).type = c.type := by
  cases k <;> rfl

theorem name_apply (c : Column) (k : ColumnConstraint) : (k.apply c).name = c.name := by
  cases k <;> rfl

/-- Constraints are read one after the other up to the end of their clause, in at least as many
    steps as there are constraints. -/
theorem exists_constraints {s : ColumnSpec} {order : List ColumnConstraint}
    (h : ∀ k ∈ order, k.Writable s.type s.name) :
    ∃ kinds, Spelled (order.flatMap ColumnConstraint.pieces) kinds ∧ Whole cutsClause 0 kinds ∧
      (∀ kind ∈ kinds.head?, kind ≠ .sign .leftParen) ∧ order.length ≤ kinds.length ∧
      ∀ c tokens steps, c.type = s.type → c.name = s.name → kindsOf tokens = kinds →
        order.length ≤ steps → readConstraintsIn c steps tokens = .ok (order.foldl s.fold c) := by
  induction order with
  | nil =>
    refine ⟨[], .nil, .nil, nofun, Nat.le_refl 0, fun c tokens steps _ _ hkinds _ => ?_⟩
    rw [List.map_eq_nil_iff.1 hkinds]
    cases steps <;> rfl
  | cons k order ih =>
    obtain ⟨word, ks, hk, hwhole, hread⟩ := exists_constraint (h k List.mem_cons_self)
    obtain ⟨ls, hls, hothers, -, hlength, hreads⟩ :=
      ih fun j hj => h j (List.mem_cons_of_mem k hj)
    refine ⟨_, hk.append hls, hwhole.append hothers, by simp, ?_, ?_⟩
    · simp only [List.length_cons, List.length_append]
      omega
    · intro c tokens steps htype hname hkinds hsteps
      obtain ⟨first, second, rfl, hfirst, hsecond⟩ := kindsOf_eq_append hkinds
      obtain ⟨place, used, rfl, hused⟩ := kindsOf_eq_cons hfirst
      obtain ⟨steps, rfl⟩ : ∃ n, steps = n + 1 := ⟨steps - 1, by simp at hsteps; omega⟩
      rw [List.cons_append, readConstraintsIn, bind_eq_ok]
      refine ⟨_, hread c used second htype hname hused, ?_⟩
      refine hreads _ second steps ?_ ?_ hsecond (by simpa using hsteps)
      · rw [type_apply, htype]
      · rw [name_apply, hname]

/-- The clause of a column is read as the column, and is not cut. -/
theorem exists_column {s : ColumnSpec} (h : s.Writable) {order : List ColumnConstraint}
    (horder : order.Perm s.constraints) :
    ∃ kinds, Spelled (columnPieces s.name s.type order) kinds ∧ Whole cutsClause 0 kinds ∧
      ∀ tokens, kindsOf tokens = kinds → readClause tokens = .ok (.column s.column) := by
  obtain ⟨typeKinds, htype, hwholeType, htakesType⟩ := exists_type h.typeName h.args
  obtain ⟨kinds, hspelled, hwhole, hhead, hlength, hreads⟩ :=
    exists_constraints fun k hk => h.constraint (horder.subset hk)
  refine ⟨_, .name h.name (htype.append hspelled), .cons (by simp) (by simp) (fun _ => rfl)
    (hwholeType.append hwhole), fun tokens hkinds => ?_⟩
  obtain ⟨place, _, rfl, hafterName⟩ := kindsOf_eq_cons hkinds
  obtain ⟨typeTokens, used, rfl, htypeTokens, rfl⟩ := kindsOf_eq_append hafterName
  have hnext : noNext (.sign .leftParen) used := by
    cases used with
    | nil => rfl
    | cons t used => exact accept?_of_ne (hhead t.kind rfl) t.place used
  have hreadType := htakesType typeTokens used htypeTokens hnext
  have hreadConstraints := hreads (.ofName s.name s.type) used used.length rfl rfl rfl
    (by rwa [List.length_map] at hlength)
  have hcolumn : readColumn (⟨.name s.name, place⟩ :: (typeTokens ++ used)) = .ok s.column := by
    rw [readColumn, bind_eq_ok]
    refine ⟨_, readName_eq_ok.2 ⟨place, rfl⟩, bind_eq_ok.2 ⟨_, hreadType, ?_⟩⟩
    rw [← s.fold_eq_column horder]
    exact hreadConstraints
  have hforeign := h.not_clause "foreign" (by simp)
  have hconstraint := h.not_clause "constraint" (by simp)
  have hcheck := h.not_clause "check" (by simp)
  simp only [readClause, hforeign, hconstraint, hcheck, Bool.or_self, Bool.false_eq_true, if_false,
    bind_eq_ok]
  exact ⟨_, hcolumn, rfl⟩

/-! ## Column lists -/

/-- A list is cut as every part of a token list is: at its first comma or at its end, and then what
    follows a comma again. -/
theorem splitClauses_eq (depth : Nat) (tokens : List Token) :
    splitClauses depth tokens =
      match splitOutside cutsClause depth tokens with
      | (_, []) => none
      | (part, t :: rest) =>
        if t.kind = .sign .rightParen then some ⟨part, [], rest⟩
        else (splitClauses 0 rest).map fun s => ⟨part, s.first :: s.others, s.rest⟩ := by
  induction tokens generalizing depth with
  | nil => rfl
  | cons t tokens ih =>
    by_cases hcut : depth = 0 ∧ cutsClause t.kind = true
    · obtain ⟨rfl, hkind⟩ := hcut
      have hout : splitOutside cutsClause 0 (t :: tokens) = ([], t :: tokens) := by
        simp [splitOutside, hkind]
      rw [hout]
      simp only [cutsClause, Bool.or_eq_true, beq_iff_eq] at hkind
      rcases hkind with hclose | hcomma
      · simp [splitClauses, hclose]
      · simp [splitClauses, hcomma]
    · have hstop : depth = 0 → cutsClause t.kind = false := fun hzero =>
        Bool.eq_false_iff.2 fun hkind => hcut ⟨hzero, hkind⟩
      have hgo : splitClauses depth (t :: tokens) =
          (splitClauses (depthAfter depth t.kind) tokens).map
            fun s => { s with first := t :: s.first } := by
        rw [splitClauses, if_neg, if_neg]
        · intro h
          simp only [Bool.and_eq_true, decide_eq_true_eq] at h
          simpa [cutsClause, h.2] using hstop h.1
        · intro h
          simp only [Bool.and_eq_true, decide_eq_true_eq] at h
          simpa [cutsClause, h.2] using hstop h.1
      rw [hgo, splitOutside_cons hstop, ih]
      obtain ⟨part, left⟩ := splitOutside cutsClause (depthAfter depth t.kind) tokens
      cases left with
      | nil => rfl
      | cons u rest =>
        by_cases hclose : u.kind = .sign .rightParen
        · simp [hclose]
        · simp [hclose, Function.comp_def]

theorem splitClauses_close {part : List Token} (h : Whole cutsClause 0 (kindsOf part))
    (place : Position) (rest : List Token) :
    splitClauses 0 (part ++ ⟨.sign .rightParen, place⟩ :: rest) = some ⟨part, [], rest⟩ := by
  rw [splitClauses_eq, splitOutside_of_whole h fun _ ht => by cases ht; rfl]
  simp

theorem splitClauses_comma {part : List Token} (h : Whole cutsClause 0 (kindsOf part))
    (place : Position) (rest : List Token) :
    splitClauses 0 (part ++ ⟨.sign .comma, place⟩ :: rest) =
      (splitClauses 0 rest).map fun s => ⟨part, s.first :: s.others, s.rest⟩ := by
  rw [splitClauses_eq, splitOutside_of_whole h fun _ ht => by cases ht; rfl]
  simp

/-- A written column: the constraints in the order in which they are written. -/
structure WrittenColumn extends ColumnSpec where
  order : List ColumnConstraint
  writable : toColumnSpec.Writable
  order_perm : order.Perm toColumnSpec.constraints

/-- The pieces of a written column. -/
def WrittenColumn.pieces (c : WrittenColumn) : List String :=
  columnPieces c.name c.type c.order

/-- The columns of a list are cut apart and read one after the other. -/
theorem exists_columns {columns : List WrittenColumn} (hne : columns ≠ []) :
    ∃ kinds, Spelled (separated (columns.map WrittenColumn.pieces)) kinds ∧
      ∀ tokens place rest, kindsOf tokens = kinds →
        ∃ s, splitClauses 0 (tokens ++ ⟨.sign .rightParen, place⟩ :: rest) = some s ∧
          ∀ after, readClauses after (s.first :: s.others) =
            .ok (columns.map fun c => .column c.column) := by
  induction columns with
  | nil => exact absurd rfl hne
  | cons c columns ih =>
    obtain ⟨ks, hks, hwhole, hread⟩ := exists_column c.writable c.order_perm
    have hclause : ∀ tokens after others clauses, kindsOf tokens = ks →
        readClauses after others = .ok clauses →
        readClauses after (tokens :: others) = .ok (.column c.column :: clauses) := by
      intro tokens after others clauses hkinds hothers
      simp only [readClauses, hread tokens hkinds, hothers, bind, Except.bind]
    cases columns with
    | nil =>
      refine ⟨ks, by rw [separated_single]; exact hks, fun tokens place rest hkinds => ?_⟩
      exact ⟨_, splitClauses_close (hkinds ▸ hwhole) place rest, fun after =>
        hclause tokens after [] [] hkinds rfl⟩
    | cons next others =>
      obtain ⟨ls, hls, hreads⟩ := ih (List.cons_ne_nil next others)
      refine ⟨ks ++ .sign .comma :: ls, ?_, fun tokens place rest hkinds => ?_⟩
      · rw [separated_cons]
        exact hks.append (.sign .comma hls)
      · obtain ⟨part, _, rfl, hpart, hafter⟩ := kindsOf_eq_append hkinds
        obtain ⟨commaPlace, tokens, rfl, htokens⟩ := kindsOf_eq_cons hafter
        obtain ⟨s, hsplit, hclauses⟩ := hreads tokens place rest htokens
        refine ⟨⟨part, s.first :: s.others, s.rest⟩, ?_, fun after =>
          hclause part after _ _ hpart (hclauses after)⟩
        rw [List.append_assoc, List.cons_append, splitClauses_comma (hpart ▸ hwhole), hsplit]
        rfl

theorem clauseColumns_columns (columns : List Column) :
    clauseColumns (columns.map .column) = columns := by
  rw [clauseColumns, List.filterMap_map]
  exact List.filterMap_some

theorem applyAll_columns (table : String) (clauses columns : List Column) :
    applyAll table (clauses.map .column) columns = .ok columns := by
  induction clauses with
  | nil => rfl
  | cons c clauses ih => exact bind_eq_ok.2 ⟨columns, rfl, ih⟩

/-! ## Statements -/

/-- The pieces of a CREATE TABLE. -/
def tablePieces (table : String) (columns : List WrittenColumn) : List String :=
  Keyword.create.spelling :: Keyword.table.spelling :: table ::
    enclosed (separated (columns.map WrittenColumn.pieces))

/-- **A table definition is read back from its text.**  The text of a CREATE TABLE, in any layout
    and with the constraints of each column in any order, parses to the columns in their order, each
    with its name, its type, its constraints and the fitted default. -/
theorem parse_createTable {table : String} {columns : List WrittenColumn} {text : List Char}
    {ending : String} (htable : IsName table) (hne : columns ≠ [])
    (hlaid : Laid (tablePieces table columns) text) (hending : ending ∈ endings) :
    parse (text ++ ending.toList) = .ok (.createTable table (columns.map fun c => c.column)) := by
  obtain ⟨kinds, hspelled, hreads⟩ := exists_columns hne
  refine parse_of_spelled (.keyword .create (.keyword .table (.name htable hspelled.enclosed)))
    hlaid hending fun tokens rest hkinds _ _ => ?_
  obtain ⟨place, _, rfl, htokens⟩ := kindsOf_eq_cons hkinds
  obtain ⟨wordPlace, _, rfl, hafterWord⟩ := kindsOf_eq_cons htokens
  obtain ⟨tablePlace, _, rfl, hafterTable⟩ := kindsOf_eq_cons hafterWord
  obtain ⟨openPlace, _, rfl, hinside⟩ := kindsOf_eq_cons hafterTable
  obtain ⟨list, _, rfl, hlist, hclose⟩ := kindsOf_eq_append hinside
  obtain ⟨closePlace, rfl⟩ := kindsOf_eq_singleton hclose
  obtain ⟨s, hsplit, hclauses⟩ := hreads list closePlace rest hlist
  have hcolumns : readColumnList table (⟨.sign .leftParen, openPlace⟩ :: (list ++
      ⟨.sign .rightParen, closePlace⟩ :: rest)) = .ok (columns.map fun c => c.column) := by
    rw [readColumnList, bind_eq_ok]
    refine ⟨_, expect_eq_ok.2 ⟨openPlace, rfl⟩, ?_⟩
    simp only [hsplit, bind_eq_ok]
    refine ⟨_, hclauses s.rest, ?_⟩
    have hall : columns.map (fun c => TableClause.column c.column) =
        (columns.map fun c => c.column).map TableClause.column := by rw [List.map_map]; rfl
    rw [hall, clauseColumns_columns, applyAll_columns]
  simp only [List.cons_append, List.append_assoc, List.nil_append, parseTokens, readStatement,
    readCreate, bind_eq_ok]
  exact ⟨_, ⟨_, rfl, (table, _), readNameAs_eq_ok.2 ⟨tablePlace, rfl⟩, _, hcolumns, rfl⟩, (), rfl,
    rfl⟩

/-- A numbered key, and a limited text with constraints out of their usual order. -/
def writtenColumns : List WrittenColumn :=
  [{ name := "id", typeName := "serial", args := [], primaryKey := true, unique := false,
     notNull := false, reference := none, default := none, order := [.primaryKey],
     writable := by
       refine ⟨by decide +kernel, by decide +kernel, by decide +kernel, nofun, nofun, nofun⟩
     order_perm := .refl _ },
   { name := "code", typeName := "char", args := [3], primaryKey := false, unique := true,
     notNull := true, reference := some ⟨"codes", "id"⟩, default := some (.literal (.text "a'b")),
     order := [.default (.literal (.text "a'b")), .references ⟨"codes", "id"⟩, .notNull, .unique],
     writable := by
       refine ⟨by decide +kernel, by decide +kernel, by decide +kernel, by decide, ?_, ?_⟩
       · rintro _ ⟨⟩
         exact ⟨by decide +kernel, by decide +kernel⟩
       · rintro _ ⟨⟩
         exact ⟨rfl, _, rfl⟩
     order_perm := by decide }]

theorem parse_createTable_written :
    parse ("CREATE TABLE t (id SERIAL PRIMARY KEY, " ++
        "code VARCHAR(3) DEFAULT 'a''b' REFERENCES codes (id) NOT NULL UNIQUE);").toList =
      .ok (.createTable "t" [(Column.ofName "id" .serial).asPrimaryKey,
        ⟨"code", .varchar (some 3), false, true, false, some ⟨"codes", "id"⟩,
          some (.literal (.text "a'b"))⟩]) := by
  have htable : IsName "t" := by decide +kernel
  have hending : ";" ∈ endings := by decide
  have htext : compact (tablePieces "t" writtenColumns) ++ ";".toList =
      ("CREATE TABLE t (id SERIAL PRIMARY KEY, " ++
        "code VARCHAR(3) DEFAULT 'a''b' REFERENCES codes (id) NOT NULL UNIQUE);").toList := by
    decide +kernel
  have hne : writtenColumns ≠ [] := List.cons_ne_nil _ _
  rw [← htext, parse_createTable htable hne (laid_compact _) hending]
  rfl

end PocketSql
