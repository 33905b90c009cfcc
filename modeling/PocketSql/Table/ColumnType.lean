/-
  Column types.

  * `ColumnType.ofName` finds the type that a name and its arguments in parentheses stand for;
  * `ColumnType.display` writes a type;
  * `ColumnType.coerce` fits a value to a type.  Types are not enforced: what does not fit stays as
    it is, except that too long a text is refused.
-/
import PocketSql.Error
import PocketSql.Value.Basic

namespace PocketSql

/-- The declared type of a column. -/
inductive ColumnType
  /-- An integer that numbers the rows when it is the primary key. -/
  | serial
  | integer
  | decimal
  /-- Text, with at most the given number of characters. -/
  | varchar (limit : Option Nat)
  | text
  | boolean
  | date
  | timestamp
  | json
  /-- A type known by its name only. -/
  | other (name : String)
deriving DecidableEq, Repr

namespace ColumnType

/-- A type name with its arguments. -/
def nameWithArgs (name : String) (args : List Nat) : String :=
  if args.isEmpty then name
  else name ++ "(" ++ ",".intercalate (args.map toString) ++ ")"

/-- The type of a name in capital letters. -/
def ofUpperName (name : String) (args : List Nat) : ColumnType :=
  match name with
  | "SERIAL" | "BIGSERIAL" => serial
  | "INTEGER" | "INT" | "BIGINT" | "SMALLINT" => integer
  | "DECIMAL" | "NUMERIC" | "FLOAT" | "REAL" | "DOUBLE" => decimal
  | "VARCHAR" | "CHAR" | "CHARACTER" => varchar args.head?
  | "TEXT" | "STRING" => text
  | "BOOLEAN" | "BOOL" => boolean
  | "DATE" => date
  | "TIMESTAMP" | "DATETIME" | "TIMESTAMPTZ" => timestamp
  | "JSON" | "JSONB" => json
  | _ => other (nameWithArgs name args)

/-- The type that a name and its arguments stand for. -/
def ofName (name : String) (args : List Nat) : ColumnType :=
  ofUpperName (String.ofList (upperText name.toList)) args

/-- A type as it is written. -/
def display : ColumnType → String
  | serial => "SERIAL"
  | integer => "INTEGER"
  | decimal => "DECIMAL"
  | varchar (some n) => s!"VARCHAR({n})"
  | varchar none => "VARCHAR"
  | text => "TEXT"
  | boolean => "BOOLEAN"
  | date => "DATE"
  | timestamp => "TIMESTAMP"
  | json => "JSON"
  | other name => name

/-- The type numbers rows. -/
def isSerial : ColumnType → Bool
  | serial => true
  | _ => false

/-- A text as a date, if it spells one. -/
def coerceDate (s : String) : Value :=
  match Timestamp.read? s.toList with
  | some t => .instant t
  | none => .text s

/-- A text as a truth value, if it spells one. -/
def coerceTruth (s : String) : Value :=
  if sameIgnoringCase s.toList "true".toList then .boolean true
  else if sameIgnoringCase s.toList "false".toList then .boolean false
  else .text s

/-- A value fitted to the type of a column. -/
def coerce (type : ColumnType) (column : String) (value : Value) : Except SqlError Value :=
  match type, value with
  | decimal, .integer i => .ok (.decimal (.ofInt i.toInt))
  | date, .text s => .ok (coerceDate s)
  | timestamp, .text s => .ok (coerceDate s)
  | boolean, .text s => .ok (coerceTruth s)
  | varchar (some limit), .text s =>
    if limit < s.length then .error (.invalidValue column s!"value longer than VARCHAR({limit})")
    else .ok (.text s)
  | _, v => .ok v

end ColumnType

end PocketSql
