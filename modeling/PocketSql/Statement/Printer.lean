/-
  Statements as text.

  A statement is written as pieces with a space between every two: reserved words in capital
  letters, names as they are, and literals.  Operands of a connective stand in parentheses with it,
  so that no order of precedence is needed to read a condition.

  * `Value.literal` writes a value; a quote inside of a text is written twice (`doubleQuotes`);
  * `Predicate.pieces` and `Statement.pieces` are the pieces of a condition and of a statement;
  * `Statement.sql` is the text of a statement.
-/
import PocketSql.Statement.Basic
import PocketSql.Token.Basic

namespace PocketSql

/-! ## Literals -/

/-- A text with every quote written twice. -/
def doubleQuotes : List Char → List Char
  | [] => []
  | c :: cs => if c = '\x27' then c :: c :: doubleQuotes cs else c :: doubleQuotes cs

/-- A text in quotes. -/
def quoted (s : String) : String :=
  String.ofList ('\x27' :: (doubleQuotes s.toList ++ ['\x27']))

/-- A value as a literal; an instant is the text that spells it. -/
def Value.literal : Value → String
  | null => Keyword.null.spelling
  | integer i => toString i.toInt
  | decimal x => x.jsonText
  | text s => quoted s
  | boolean b => if b then Keyword.true_.spelling else Keyword.false_.spelling
  | instant t => quoted t.text

/-- Lists of pieces with commas between them. -/
def separated (items : List (List String)) : List String :=
  [Sign.comma.spelling].intercalate items

/-- Pieces in parentheses. -/
def enclosed (pieces : List String) : List String :=
  Sign.leftParen.spelling :: pieces ++ [Sign.rightParen.spelling]

/-- Names in parentheses. -/
def enclosedNames (names : List String) : List String :=
  enclosed (separated (names.map fun name => [name]))

/-- Literals in parentheses. -/
def enclosedValues (values : List Value) : List String :=
  enclosed (separated (values.map fun v => [v.literal]))

/-! ## Conditions -/

/-- The sign of a comparison. -/
def CompareOp.sign : CompareOp → Sign
  | eq => .eq
  | ne => .ne
  | lt => .lt
  | le => .le
  | gt => .gt
  | ge => .ge

/-- The pieces of a condition. -/
def Predicate.pieces : Predicate → List String
  | compare column op value => [column, op.sign.spelling, value.literal]
  | isNull column false => [column, Keyword.is.spelling, Keyword.null.spelling]
  | isNull column true =>
    [column, Keyword.is.spelling, Keyword.not.spelling, Keyword.null.spelling]
  | and left right => enclosed (left.pieces ++ Keyword.and.spelling :: right.pieces)
  | or left right => enclosed (left.pieces ++ Keyword.or.spelling :: right.pieces)
  | not inner => Keyword.not.spelling :: inner.pieces
  | unsupported text => [text]

/-- The most negations and parentheses around a test of a condition as it is written. -/
def Predicate.height : Predicate → Nat
  | and left right | or left right => max left.height right.height + 1
  | not inner => inner.height + 1
  | compare _ _ _ | isNull _ _ | unsupported _ => 0

/-- The number of tests of a condition. -/
def Predicate.tests : Predicate → Nat
  | and left right | or left right => left.tests + right.tests
  | not inner => inner.tests
  | compare _ _ _ | isNull _ _ => 1
  | unsupported _ => 0

/-- The pieces of an optional WHERE clause. -/
def wherePieces : Option Predicate → List String
  | none => []
  | some p => Keyword.where_.spelling :: p.pieces

/-! ## Column definitions -/

/-- The pieces of the default of a column. -/
def ColumnDefault.pieces : ColumnDefault → List String
  | literal v => [v.literal]
  | now => ["NOW()"]

/-- The constraints of a column as they are written. -/
inductive ColumnConstraint
  | primaryKey
  | unique
  | notNull
  | references (reference : ColumnRef)
  | default (value : ColumnDefault)
deriving DecidableEq

namespace ColumnConstraint

/-- The column with a constraint. -/
def apply (c : Column) : ColumnConstraint → Column
  | primaryKey => c.asPrimaryKey
  | unique => c.asUnique
  | notNull => c.asNotNull
  | references reference => c.withReference reference
  | default value => c.withDefault value

/-- The pieces of a constraint. -/
def pieces : ColumnConstraint → List String
  | primaryKey => [Keyword.primary.spelling, Keyword.key.spelling]
  | unique => [Keyword.unique.spelling]
  | notNull => [Keyword.not.spelling, Keyword.null.spelling]
  | references reference =>
    Keyword.references.spelling :: reference.table :: enclosedNames [reference.column]
  | default value => Keyword.default.spelling :: value.pieces

end ColumnConstraint

/-- The pieces of a column of a type with constraints. -/
def columnPieces (name : String) (type : ColumnType) (constraints : List ColumnConstraint) :
    List String :=
  name :: type.display :: constraints.flatMap ColumnConstraint.pieces

/-- The constraints that make a column out of its name and type. -/
def Column.constraints (c : Column) : List ColumnConstraint :=
  (if c.primaryKey then [.primaryKey] else []) ++
  (if c.unique then [.unique] else []) ++
  (if c.nullable then [] else [.notNull]) ++
  (c.reference.map ColumnConstraint.references).toList ++
  (c.default.map ColumnConstraint.default).toList

/-- The pieces of a column. -/
def Column.pieces (c : Column) : List String :=
  columnPieces c.name c.type c.constraints

/-! ## Statements -/

/-- The pieces of what a SELECT shows. -/
def Projection.pieces : Projection → List String
  | all => [Sign.star.spelling]
  | columns names => separated (names.map fun name => [name])

/-- The pieces of a column to sort by. -/
def SortKey.pieces (key : SortKey) : List String :=
  [key.column, if key.ascending then Keyword.asc.spelling else Keyword.desc.spelling]

/-- The pieces of an optional ORDER BY clause. -/
def orderPieces (order : List SortKey) : List String :=
  if order.isEmpty then []
  else Keyword.order.spelling :: Keyword.by_.spelling :: separated (order.map SortKey.pieces)

/-- The pieces of an optional count after a word. -/
def countPieces (word : Keyword) : Option Nat → List String
  | none => []
  | some n => [word.spelling, toString n]

/-- The pieces of a SELECT. -/
def Query.pieces (q : Query) : List String :=
  Keyword.select.spelling :: q.projection.pieces ++ Keyword.from_.spelling :: q.table ::
    (wherePieces q.condition ++ orderPieces q.order ++ countPieces .limit q.limit ++
      countPieces .offset q.offset)

/-- The pieces of an assignment. -/
def assignmentPieces (assignment : String × Value) : List String :=
  [assignment.1, Sign.eq.spelling, assignment.2.literal]

/-- The pieces of a statement. -/
def Statement.pieces : Statement → List String
  | select query => query.pieces
  | insert table columns rows =>
    Keyword.insert.spelling :: Keyword.into.spelling :: table ::
      ((columns.map enclosedNames).getD [] ++
        Keyword.values.spelling :: separated (rows.map enclosedValues))
  | update table assignments condition =>
    Keyword.update.spelling :: table :: Keyword.set.spelling ::
      (separated (assignments.map assignmentPieces) ++ wherePieces condition)
  | delete table condition =>
    Keyword.delete.spelling :: Keyword.from_.spelling :: table :: wherePieces condition
  | createTable table columns =>
    Keyword.create.spelling :: Keyword.table.spelling :: table ::
      enclosed (separated (columns.map Column.pieces))
  | dropTable table ifExists =>
    Keyword.drop.spelling :: Keyword.table.spelling ::
      ((if ifExists then [Keyword.if_.spelling, Keyword.exists_.spelling] else []) ++ [table])

/-- Pieces with a space between every two. -/
def spaced (pieces : List String) : List Char :=
  [' '].intercalate (pieces.map String.toList)

/-- The text of a statement. -/
def Statement.sql (s : Statement) : List Char :=
  spaced s.pieces

end PocketSql
