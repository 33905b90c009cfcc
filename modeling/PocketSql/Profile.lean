/-
  What a table actually holds, column by column.

  `profileColumns` gives for each column a `Profile`: its declared type, the type that its first
  value looks like, how many values are absent and how many are different, and the first values.
  Nothing is said of a table without rows.
-/
import PocketSql.Table.Column
import PocketSql.Table.Row

namespace PocketSql

/-- What a value looks like. -/
inductive DetectedType
  | integer | decimal | boolean | email | date | varchar | text
  /-- There is no value to look at. -/
  | null
deriving DecidableEq, Repr

/-- The profile of a column. -/
structure Profile where
  declaredType : String
  detectedType : DetectedType
  nullCount : Nat
  /-- How many different values there are. -/
  uniqueCount : Nat
  samples : List Value
deriving DecidableEq

/-- The most characters of a short text. -/
def shortTextLimit : Nat := 100

/-- How many values a profile shows. -/
def sampleLimit : Nat := 3

/-- A text begins with a date, `YYYY-MM-DD`; the date need not exist. -/
def beginsWithDate (cs : List Char) : Bool :=
  match cs with
  | a :: b :: c :: d :: '-' :: e :: f :: '-' :: g :: h :: _ =>
    [a, b, c, d, e, f, g, h].all Char.isDigit
  | _ => false

namespace DetectedType

/-- The name of what a value looks like. -/
def name : DetectedType → String
  | integer => "INTEGER"
  | decimal => "DECIMAL"
  | boolean => "BOOLEAN"
  | email => "EMAIL"
  | date => "DATE"
  | varchar => "VARCHAR"
  | text => "TEXT"
  | null => "NULL"

/-- What a text looks like. -/
def ofText (s : String) : DetectedType :=
  if s.toList.contains '@' then email
  else if shortTextLimit < s.length then text
  else if beginsWithDate s.toList then date
  else varchar

/-- What a value looks like. -/
def ofValue : Value → DetectedType
  | .null => null
  | .integer _ => integer
  | .decimal x => if x.whole?.isSome then integer else decimal
  | .text s => ofText s
  | .boolean _ => boolean
  | .instant _ => date

end DetectedType

/-- The values of a column that are not absent, in order. -/
def presentValues (column : String) (rows : List Row) : List Value :=
  (rows.filterMap fun row => row.get? column).filter fun v => !v.isNull

/-- How many different values there are among some. -/
def countDistinct (values : List Value) : Nat :=
  (values.filterMap Value.key?).eraseDups.length

/-- The profile of a column over some rows. -/
def profileColumn (rows : List Row) (c : Column) : Profile :=
  let values := presentValues c.name rows
  { declaredType := c.type.display
    detectedType := (values.head?.map DetectedType.ofValue).getD .null
    nullCount := rows.length - values.length
    uniqueCount := countDistinct values
    samples := values.take sampleLimit }

/-- The profiles of all columns, with their names. -/
def profileColumns (columns : List Column) (rows : List Row) : List (String × Profile) :=
  if rows.isEmpty then [] else columns.map fun c => (c.name, profileColumn rows c)

end PocketSql
