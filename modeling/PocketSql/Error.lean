/-
  What can go wrong with a statement.

  * `SqlError` lists the causes, with `Malformed` for those of a text or a table definition that
    is not well formed;
  * `SqlError.message` is the text shown for a cause;
  * `SqlError.family` is the family of a cause, `ErrorFamily.name` its name;
  * `SqlError.breaksOff` says that nothing is answered for it.

  `bind_eq_ok` and `bind_eq_error` peel apart checks that follow one another.
-/
import PocketSql.Text.Basic

namespace PocketSql

/-- What a reader was looking for when it met something else. -/
inductive Wanted
  /-- A fixed word or sign. -/
  | token (text : String)
  | tableName
  | identifier
  | columnName
  | value
  | number
  | count
  | numberAfterMinus
  /-- A number within range, where the given one is not. -/
  | finiteNumber (text : String)
  | endOfColumnList
  | columnDefinition
  | endOfStatement
deriving DecidableEq, Repr

/-- A text that is not well formed, or a table definition that makes no table. -/
inductive Malformed
  | openComment
  | openText (start : Position)
  /-- Something else than what was wanted stands at a place: a token, or the end of the text. -/
  | unexpected (wanted : Wanted) (found : Option String) (place : Position)
  | noColumns (table : String)
  | repeatedColumn (column table : String)
  | severalPrimaryKeys (table : String)
  | noRow
deriving DecidableEq, Repr

/-- The causes for which a statement, or settings, are refused. -/
inductive SqlError
  | unsupportedStatement
  | missingFrom
  | unsupportedPredicate (text : String)
  | malformed (cause : Malformed)
  | badSettings (detail : String)
  | unknownTable (table : String)
  | tableExists (table : String)
  | countMismatch
  | unknownColumn (column table : String)
  | nullNotAllowed (column : String)
  | duplicateKey (column value : String)
  | invalidValue (column reason : String)
  /-- Rows cannot be sorted, since their comparison contradicts itself. -/
  | contradictoryOrder
deriving DecidableEq, Repr

/-- The families of causes. -/
inductive ErrorFamily
  | malformedText
  | unknownTable
  | duplicateTable
  | columnMismatch
  | constraintViolation
  /-- What runs breaks off. -/
  | breakdown
deriving DecidableEq, Repr

/-! ## Texts -/

/-- What was wanted, in words. -/
def Wanted.message : Wanted → String
  | token text => s!"expected '{text}'"
  | tableName => "expected table name"
  | identifier => "expected identifier"
  | columnName => "expected column name"
  | value => "expected a value"
  | number => "expected number"
  | count => "expected non-negative integer"
  | numberAfterMinus => "expected number after '-'"
  | finiteNumber text => s!"invalid number '{text}'"
  | endOfColumnList => "unclosed column list"
  | columnDefinition => "empty column definition"
  | endOfStatement => "unexpected input after statement"

/-- What was found, in words. -/
def foundText : Option String → String
  | some text => s!"'{text}'"
  | none => "end of input"

/-- A cause, in words. -/
def Malformed.message : Malformed → String
  | openComment => "unterminated block comment"
  | openText p => s!"unterminated string starting at line {p.line} column {p.column}"
  | unexpected wanted found p =>
    s!"{wanted.message}, found {foundText found} at line {p.line} column {p.column}"
  | noColumns table => s!"table '{table}' needs at least one column"
  | repeatedColumn column table => s!"duplicate column '{column}' in table '{table}'"
  | severalPrimaryKeys table => s!"table '{table}' declares more than one primary key"
  | noRow => "no row to insert"

namespace SqlError

/-- A cause, in words. -/
def message : SqlError → String
  | unsupportedStatement => "unsupported statement"
  | missingFrom => "missing FROM clause"
  | unsupportedPredicate text => s!"unsupported predicate: {text}"
  | malformed cause => s!"Syntax error: {cause.message}"
  | badSettings detail => s!"Configuration error: {detail}"
  | unknownTable table => s!"Table not found: {table}"
  | tableExists table => s!"Table already exists: {table}"
  | countMismatch => "column/value count mismatch"
  | unknownColumn column table => s!"Column '{column}' does not exist in table '{table}'"
  | nullNotAllowed column => s!"Column '{column}' cannot be null"
  | duplicateKey column value => s!"Duplicate value for unique column '{column}': {value}"
  | invalidValue column reason => s!"Invalid value for column '{column}': {reason}"
  | contradictoryOrder =>
    "user-provided comparison function does not correctly implement a total order"

/-- The family of a cause. -/
def family : SqlError → ErrorFamily
  | unsupportedStatement | missingFrom | unsupportedPredicate _ | malformed _ | badSettings _ =>
    .malformedText
  | unknownTable _ => .unknownTable
  | tableExists _ => .duplicateTable
  | countMismatch | unknownColumn _ _ => .columnMismatch
  | nullNotAllowed _ | duplicateKey _ _ | invalidValue _ _ => .constraintViolation
  | contradictoryOrder => .breakdown

/-- What runs breaks off for a cause, and gives no answer. -/
def breaksOff (cause : SqlError) : Bool :=
  cause.family == .breakdown

end SqlError

/-- The name of a family, as it is shown. -/
def ErrorFamily.name : ErrorFamily → String
  | malformedText => "SYNTAX_ERROR"
  | unknownTable => "UNKNOWN_TABLE_ERROR"
  | duplicateTable => "DUPLICATE_TABLE_ERROR"
  | columnMismatch => "COLUMN_MISMATCH_ERROR"
  | constraintViolation => "CONSTRAINT_VIOLATION"
  | breakdown => "PANIC"

/-! ## Checks that follow one another -/

section
variable {α β ε : Type}

theorem bind_eq_ok {x : Except ε α} {f : α → Except ε β} {b : β} :
    x >>= f = .ok b ↔ ∃ a, x = .ok a ∧ f a = .ok b := by
  cases x with
  | error e => simp [bind, Except.bind]
  | ok a => simp [bind, Except.bind]

theorem bind_eq_error {x : Except ε α} {f : α → Except ε β} {e : ε} :
    x >>= f = .error e ↔ x = .error e ∨ ∃ a, x = .ok a ∧ f a = .error e := by
  cases x with
  | error e => simp [bind, Except.bind]
  | ok a => simp [bind, Except.bind]

theorem toOption_eq_some {x : Except ε α} {a : α} : x.toOption = some a ↔ x = .ok a := by
  cases x with
  | error e => simp [Except.toOption]
  | ok b => simp [Except.toOption]

theorem toOption_bind {x : Except ε α} {f : α → Except ε β} :
    (x >>= f).toOption = x.toOption.bind fun a => (f a).toOption := by
  cases x <;> rfl

end

end PocketSql
