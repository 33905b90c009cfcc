/-
  From text to statements.

  `parse` reads one statement, which one `;` may follow.  A text that does not lex is reported as
  such if it begins with the first word of a statement, and else as a statement that is not
  supported.
-/
import PocketSql.Predicate.Reader
import PocketSql.Statement.Basic
import PocketSql.Statement.ColumnReader

namespace PocketSql

/-! ## SELECT -/

/-- Names at the even places and commas between them. -/
def plainNames? : List TokenKind → Option (List String)
  | [.name word] => some [word]
  | .name word :: .sign .comma :: rest => (plainNames? rest).map (word :: ·)
  | _ => none

/-- What the tokens before FROM select; what is no plain list of columns selects all. -/
def projectionOf (kinds : List TokenKind) : Projection :=
  match plainNames? kinds with
  | some names => .columns names
  | none => .all

/-- A sort key: a column and an optional direction. -/
def readSortKey (tokens : List Token) : Except Fault (SortKey × List Token) := do
  let (column, rest) ← readColumnName tokens
  match accept? (.keyword .desc) rest with
  | some rest => .ok (⟨column, false⟩, rest)
  | none => .ok (⟨column, true⟩, (accept? (.keyword .asc) rest).getD rest)

/-- An optional ORDER BY clause. -/
def readOrder (tokens : List Token) : Except Fault (List SortKey × List Token) :=
  match accept? (.keyword .order) tokens with
  | none => .ok ([], tokens)
  | some rest => do
    let rest ← expect (.keyword .by_) rest
    readList readSortKey rest

/-- An optional word with a count after it. -/
def readOptionalCount (word : Keyword) (tokens : List Token) :
    Except Fault (Option Nat × List Token) :=
  match accept? (.keyword word) tokens with
  | none => .ok (none, tokens)
  | some rest => do
    let (n, rest) ← readCountToken rest
    .ok (some n, rest)

/-- The table after FROM; whatever is wrong there, it is the FROM clause that is missing. -/
def readFrom (tokens : List Token) : Except Fault (String × List Token) :=
  match tokens with
  | ⟨.keyword .from_, _⟩ :: ⟨.name table, _⟩ :: rest => .ok (table, rest)
  | _ => .error (.refused .missingFrom)

/-- A SELECT, from after its first word. -/
def readSelect (tokens : List Token) : Except Fault (Statement × List Token) := do
  let (shown, rest) := splitOutside (· == .keyword .from_) 0 tokens
  let (table, rest) ← readFrom rest
  let (condition, rest) := readWhere rest
  let (order, rest) ← readOrder rest
  let (limit, rest) ← readOptionalCount .limit rest
  let (offset, rest) ← readOptionalCount .offset rest
  .ok (.select ⟨projectionOf (shown.map Token.kind), table, condition, order, limit, offset⟩, rest)

/-! ## INSERT, UPDATE, DELETE -/

/-- An optional list of column names. -/
def readInsertColumns (tokens : List Token) :
    Except Fault (Option (List String) × List Token) :=
  if (accept? (.sign .leftParen) tokens).isSome then do
    let (names, rest) ← readParenthesized readName tokens
    .ok (some names, rest)
  else .ok (none, tokens)

/-- Every row has a value for every named column. -/
def rowsFit (columns : Option (List String)) (rows : List (List Value)) : Bool :=
  match columns with
  | none => true
  | some names => rows.all fun row => row.length == names.length

/-- An INSERT, from after its first word. -/
def readInsert (tokens : List Token) : Except Fault (Statement × List Token) := do
  let rest ← expect (.keyword .into) tokens
  let (table, rest) ← readTableName rest
  let (columns, rest) ← readInsertColumns rest
  let rest ← expect (.keyword .values) rest
  let (rows, rest) ← readList (readParenthesized readLiteral) rest
  if rowsFit columns rows then .ok (.insert table columns rows, rest)
  else .error (.refused .countMismatch)

/-- An assignment of a literal to a column. -/
def readAssignment (tokens : List Token) : Except Fault ((String × Value) × List Token) := do
  let (column, rest) ← readColumnName tokens
  let rest ← expect (.sign .eq) rest
  let (value, rest) ← readLiteral rest
  .ok ((column, value), rest)

/-- An UPDATE, from after its first word. -/
def readUpdate (tokens : List Token) : Except Fault (Statement × List Token) := do
  let (table, rest) ← readTableName tokens
  let rest ← expect (.keyword .set) rest
  let (assignments, rest) ← readList readAssignment rest
  let (condition, rest) := readWhere rest
  .ok (.update table assignments condition, rest)

/-- A DELETE, from after its first word. -/
def readDelete (tokens : List Token) : Except Fault (Statement × List Token) := do
  let rest ← expect (.keyword .from_) tokens
  let (table, rest) ← readTableName rest
  let (condition, rest) := readWhere rest
  .ok (.delete table condition, rest)

/-! ## CREATE TABLE, DROP TABLE -/

/-- The word TABLE, without which the statement is not supported. -/
def expectTable (tokens : List Token) : Except Fault (List Token) :=
  match accept? (.keyword .table) tokens with
  | some rest => .ok rest
  | none => .error (.refused .unsupportedStatement)

/-- A CREATE TABLE, from after its first word.  What follows the column list is passed over. -/
def readCreate (tokens : List Token) : Except Fault (Statement × List Token) := do
  let rest ← expectTable tokens
  let (table, rest) ← readTableName rest
  let columns ← readColumnList table rest
  .ok (.createTable table columns, [])

/-- The optional words IF EXISTS. -/
def readIfExists (tokens : List Token) : Except Fault (Bool × List Token) :=
  match accept? (.keyword .if_) tokens with
  | none => .ok (false, tokens)
  | some rest => do
    let rest ← expect (.keyword .exists_) rest
    .ok (true, rest)

/-- A DROP TABLE, from after its first word. -/
def readDrop (tokens : List Token) : Except Fault (Statement × List Token) := do
  let rest ← expectTable tokens
  let (ifExists, rest) ← readIfExists rest
  let (table, rest) ← readTableName rest
  .ok (.dropTable table ifExists, rest)

/-! ## Statements -/

/-- A statement, by its first word. -/
def readStatement : Reader Statement
  | ⟨.keyword .select, _⟩ :: rest => readSelect rest
  | ⟨.keyword .insert, _⟩ :: rest => readInsert rest
  | ⟨.keyword .update, _⟩ :: rest => readUpdate rest
  | ⟨.keyword .delete, _⟩ :: rest => readDelete rest
  | ⟨.keyword .create, _⟩ :: rest => readCreate rest
  | ⟨.keyword .drop, _⟩ :: rest => readDrop rest
  | _ => .error (.refused .unsupportedStatement)

/-- The end of a statement: nothing, or one `;`. -/
def expectEnd (tokens : List Token) : Except Fault Unit :=
  match (accept? (.sign .semicolon) tokens).getD tokens with
  | [] => .ok ()
  | rest => .error (unexpected .endOfStatement rest)

/-- The statement that a list of tokens spells. -/
def parseTokens (tokens : List Token) : Except Fault Statement := do
  let (statement, rest) ← readStatement tokens
  expectEnd rest
  .ok statement

/-- A text begins with the first word of a statement. -/
def startsStatement (text : List Char) : Bool :=
  match Keyword.ofWord? ((trimLeft text).takeWhile isLetter) with
  | some k => k.startsStatement
  | none => false

/-- The statement that a text spells. -/
def parse (text : List Char) : Except SqlError Statement :=
  match lex text with
  | .error e => .error (if startsStatement text then .malformed e else .unsupportedStatement)
  | .ok l =>
    match parseTokens l.tokens with
    | .ok statement => .ok statement
    | .error fault => .error (fault.cause l.stop)

end PocketSql
