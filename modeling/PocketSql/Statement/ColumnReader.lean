/-
  The column list of CREATE TABLE.

  The list is cut at the commas outside of parentheses (`splitClauses`).  A clause is a table
  constraint, which names columns, or a column: a name, a type and constraints in any order
  (`readConstraints`), where a token that begins no constraint is passed over.  The table
  constraints are applied to the columns afterwards (`applyAll`).
-/
import PocketSql.Table.Column
import PocketSql.Token.Reader

namespace PocketSql

/-- A clause of a column list. -/
inductive TableClause
  | column (c : Column)
  | primaryKey (columns : List String)
  | unique (columns : List String)
  | foreignKey (columns : List String) (reference : ColumnRef)
  | ignored
deriving DecidableEq

/-! ## Single columns -/

/-- The arguments of a type, in parentheses, if they are there. -/
def readTypeArgs (tokens : List Token) : Except Fault (List Nat × List Token) :=
  if (accept? (.sign .leftParen) tokens).isSome then readParenthesized readCountToken tokens
  else .ok ([], tokens)

/-- The type of a column; without a type name it is TEXT. -/
def readColumnType : Reader ColumnType
  | ⟨.name word, _⟩ :: rest => do
    let (args, rest) ← readTypeArgs rest
    .ok (.ofName word args, rest)
  | tokens => .ok (.text, tokens)

/-- The names of the present instant. -/
def namesNow (word : String) : Bool :=
  ["NOW", "CURRENT_TIMESTAMP", "CURRENT_DATE"].contains (String.ofList (upperText word.toList))

/-- Empty parentheses, if an opening one is there. -/
def skipEmptyParens (tokens : List Token) : Except Fault (List Token) :=
  match accept? (.sign .leftParen) tokens with
  | some rest => expect (.sign .rightParen) rest
  | none => .ok tokens

/-- A literal as the default of a column, fitted to its type. -/
def readLiteralDefault (c : Column) (tokens : List Token) :
    Except Fault (ColumnDefault × List Token) := do
  let (v, rest) ← readLiteral tokens
  match c.type.coerce c.name v with
  | .ok v => .ok (.literal v, rest)
  | .error cause => .error (.refused cause)

/-- The default of a column: the present instant or a literal. -/
def readDefault (c : Column) (tokens : List Token) :
    Except Fault (ColumnDefault × List Token) :=
  match tokens with
  | ⟨.name word, _⟩ :: rest =>
    if namesNow word then do
      let rest ← skipEmptyParens rest
      .ok (.now, rest)
    else readLiteralDefault c tokens
  | _ => readLiteralDefault c tokens

/-- A table and a column in parentheses; without a column it is `id`. -/
def readReference (tokens : List Token) : Except Fault (ColumnRef × List Token) := do
  let (table, rest) ← readName tokens
  match accept? (.sign .leftParen) rest with
  | none => .ok (⟨table, "id"⟩, rest)
  | some rest => do
    let (column, rest) ← readName rest
    let rest ← expect (.sign .rightParen) rest
    .ok (⟨table, column⟩, rest)

/-- The column after what begins at a token: a constraint, or a token that is passed over. -/
def readConstraint (c : Column) (kind : TokenKind) (rest : List Token) :
    Except Fault (Column × List Token) :=
  match kind with
  | .keyword .primary =>
    match accept? (.keyword .key) rest with
    | some rest => .ok (c.asPrimaryKey, rest)
    | none => .ok (c, rest)
  | .keyword .not =>
    match accept? (.keyword .null) rest with
    | some rest => .ok (c.asNotNull, rest)
    | none => .ok (c, rest)
  | .keyword .unique => .ok (c.asUnique, rest)
  | .keyword .default => do
    let (d, rest) ← readDefault c rest
    .ok (c.withDefault d, rest)
  | .keyword .references => do
    let (r, rest) ← readReference rest
    .ok (c.withReference r, rest)
  | _ => .ok (c, rest)

/-- The column with the constraints up to the end of its clause, at most `steps` of them. -/
def readConstraintsIn (c : Column) : Nat → List Token → Except Fault Column
  | 0, _ => .ok c
  | _ + 1, [] => .ok c
  | steps + 1, t :: rest => do
    let (c, rest) ← readConstraint c t.kind rest
    readConstraintsIn c steps rest

/-- The column with the constraints up to the end of its clause.  A constraint takes at least one
    token, so there are no more constraints than tokens. -/
def readConstraints (c : Column) (tokens : List Token) : Except Fault Column :=
  readConstraintsIn c tokens.length tokens

/-- A column: a name, a type, and constraints up to the end of the clause. -/
def readColumn (tokens : List Token) : Except Fault Column := do
  let (name, rest) ← readName tokens
  let (type, rest) ← readColumnType rest
  readConstraints (.ofName name type) rest

/-! ## Clauses -/

/-- A name is a given word, in any case. -/
def isWord (word : String) (name : String) : Bool :=
  sameIgnoringCase name.toList word.toList

/-- A foreign key of the table, from after the word FOREIGN. -/
def readForeignKey (tokens : List Token) : Except Fault TableClause := do
  let rest ← expect (.keyword .key) tokens
  let (columns, rest) ← readParenthesized readName rest
  let rest ← expect (.keyword .references) rest
  let (reference, _) ← readReference rest
  .ok (.foreignKey columns reference)

/-- A clause of a column list. -/
def readClause (tokens : List Token) : Except Fault TableClause :=
  match tokens with
  | [] => .error (unexpected .columnDefinition tokens)
  | t :: rest =>
    match t.kind with
    | .keyword .primary => do
      let rest ← expect (.keyword .key) rest
      let (columns, _) ← readParenthesized readName rest
      .ok (.primaryKey columns)
    | .keyword .unique => do
      let (columns, _) ← readParenthesized readName rest
      .ok (.unique columns)
    | .name word =>
      if isWord "foreign" word then readForeignKey rest
      else if isWord "constraint" word || isWord "check" word then .ok .ignored
      else do
        let c ← readColumn tokens
        .ok (.column c)
    | _ => .error (unexpected .columnName tokens)

/-- The clauses of some parts of a list, `rest` being the tokens after the list. -/
def readClauses (rest : List Token) : List (List Token) → Except Fault (List TableClause)
  | [] => .ok []
  | part :: parts =>
    match readClause part with
    | .error fault => .error (fault.before rest)
    | .ok clause => do
      let clauses ← readClauses rest parts
      .ok (clause :: clauses)

/-! ## The list -/

/-- The parts of a list, and what follows it. -/
structure ClauseSplit where
  first : List Token
  others : List (List Token)
  rest : List Token

/-- The parts of a list whose opening parenthesis has been read, cut at the commas outside of inner
    parentheses, of which `depth` are open; nothing if the list is not closed. -/
def splitClauses (depth : Nat) : List Token → Option ClauseSplit
  | [] => none
  | t :: rest =>
    if depth = 0 && t.kind == .sign .rightParen then some ⟨[], [], rest⟩
    else if depth = 0 && t.kind == .sign .comma then
      (splitClauses 0 rest).map fun s => ⟨[], s.first :: s.others, s.rest⟩
    else
      (splitClauses (depthAfter depth t.kind) rest).map fun s => { s with first := t :: s.first }

/-- The columns that clauses define, in order. -/
def clauseColumns (clauses : List TableClause) : List Column :=
  clauses.filterMap fun
    | .column c => some c
    | _ => none

/-- Columns with the first one of a name changed. -/
def modifyColumn (change : Column → Column) (name : String) : List Column → Option (List Column)
  | [] => none
  | c :: columns =>
    if c.name = name then some (change c :: columns)
    else (modifyColumn change name columns).map (c :: ·)

/-- Columns with those of some names changed; the names have to be among them. -/
def modifyColumns (table : String) (change : Column → Column) :
    List String → List Column → Except Fault (List Column)
  | [], columns => .ok columns
  | name :: names, columns =>
    match modifyColumn change name columns with
    | some columns => modifyColumns table change names columns
    | none => .error (.refused (.unknownColumn name table))

/-- Columns with the constraint of a clause. -/
def applyClause (table : String) (columns : List Column) :
    TableClause → Except Fault (List Column)
  | .primaryKey names => modifyColumns table Column.asPrimaryKey names columns
  | .unique names => modifyColumns table Column.asUnique names columns
  | .foreignKey names reference =>
    modifyColumns table (fun c => c.withReference reference) names columns
  | .column _ | .ignored => .ok columns

/-- Columns with the constraints of clauses. -/
def applyAll (table : String) : List TableClause → List Column → Except Fault (List Column)
  | [], columns => .ok columns
  | clause :: clauses, columns => do
    let columns ← applyClause table columns clause
    applyAll table clauses columns

/-- The columns of a list in parentheses. -/
def readColumnList (table : String) (tokens : List Token) : Except Fault (List Column) := do
  let rest ← expect (.sign .leftParen) tokens
  match splitClauses 0 rest with
  | none => .error (unexpected .endOfColumnList [])
  | some s => do
    let clauses ← readClauses s.rest (s.first :: s.others)
    applyAll table clauses (clauseColumns clauses)

end PocketSql
