/-
  Column definitions.

  A column is made by `Column.ofName` and then given its constraints one by one.  A primary key is
  unique and not null, and one of a SERIAL type numbers the rows.
-/
import PocketSql.Table.ColumnType

namespace PocketSql

/-- What a new row holds in a column that it does not name. -/
inductive ColumnDefault
  | literal (value : Value)
  /-- The instant at which the row is made. -/
  | now
deriving DecidableEq

/-- The column that a foreign key refers to. -/
structure ColumnRef where
  table : String
  column : String
deriving DecidableEq, Repr

/-- A reference as it is written. -/
def ColumnRef.display (r : ColumnRef) : String :=
  s!"{r.table}.{r.column}"

/-- A column of a table. -/
structure Column where
  name : String
  type : ColumnType
  primaryKey : Bool
  unique : Bool
  nullable : Bool
  reference : Option ColumnRef
  default : Option ColumnDefault
deriving DecidableEq

namespace Column

/-- A column without constraints. -/
def ofName (name : String) (type : ColumnType) : Column :=
  ⟨name, type, false, false, true, none, none⟩

/-- The column as primary key. -/
def asPrimaryKey (c : Column) : Column :=
  { c with primaryKey := true, unique := true, nullable := false }

/-- The column without repeated values. -/
def asUnique (c : Column) : Column :=
  { c with unique := true }

/-- The column without absent values. -/
def asNotNull (c : Column) : Column :=
  { c with nullable := false }

/-- The column with a foreign key. -/
def withReference (c : Column) (reference : ColumnRef) : Column :=
  { c with reference := some reference }

/-- The column with a default. -/
def withDefault (c : Column) (default : ColumnDefault) : Column :=
  { c with default := some default }

/-- Values may not repeat. -/
def isUnique (c : Column) : Bool :=
  c.unique || c.primaryKey

/-- Rows that do not name the column are numbered. -/
def isAutoIncrement (c : Column) : Bool :=
  c.primaryKey && c.type.isSerial

/-- A new row has to name the column. -/
def isRequired (c : Column) : Bool :=
  !c.nullable && c.default.isNone && !c.isAutoIncrement

end Column

/-- The value of a default in a row made at an instant. -/
def ColumnDefault.valueAt (instant : Timestamp) : ColumnDefault → Value
  | literal v => v
  | now => .instant instant

end PocketSql
