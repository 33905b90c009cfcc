/-
  The values of table cells.

  * `Value` has one constructor for each kind of cell;
  * `Value.ofNumberText?` reads a number literal: an integer if it fits, else a finite decimal;
  * `Value.number?` is the numeric reading of a value, in which a text that spells a number counts;
  * `Value.whole?` is the integer a number is equal to;
  * `Value.display` is the text of a value in messages.
-/
import PocketSql.Number.DecimalText
import PocketSql.Time.Timestamp

namespace PocketSql

/-- A cell of a table. -/
inductive Value
  | null
  | integer (i : Int64)
  | decimal (x : Binary64)
  | text (s : String)
  | boolean (b : Bool)
  | instant (t : Timestamp)
deriving DecidableEq

namespace Value

/-- A decimal number in text, if it is finite. -/
def finiteDecimal? (cs : List Char) : Option Binary64 :=
  (readBinary64 cs).filter Binary64.isFinite

/-- A number literal: an integer if it fits in 64 bits, else a finite decimal. -/
def ofNumberText? (cs : List Char) : Option Value :=
  match readInt64 cs with
  | some i => some (.integer i)
  | none => (finiteDecimal? cs).map .decimal

/-- The absent value. -/
def isNull : Value → Bool
  | null => true
  | _ => false

/-- An integer or a decimal. -/
def isNumeric : Value → Bool
  | integer _ | decimal _ => true
  | _ => false

/-- The kind of a value, in words. -/
def kindName : Value → String
  | null => "null"
  | integer _ => "integer"
  | decimal _ => "decimal"
  | text _ => "text"
  | boolean _ => "boolean"
  | instant _ => "datetime"

/-- The numeric reading of a value: a number, or a text that spells a finite one. -/
def number? : Value → Option Binary64
  | integer i => some (.ofInt i.toInt)
  | decimal x => some x
  | text s => finiteDecimal? (trim s.toList)
  | _ => none

/-- The integer that a numeric value is equal to, if it fits in 64 bits. -/
def whole? : Value → Option Int
  | integer i => some i.toInt
  | decimal x => x.whole?.filter fitsInt64
  | _ => none

/-- The date reading of a value: a timestamp, or a text that spells one. -/
def timestamp? : Value → Option Timestamp
  | instant t => some t
  | text s => Timestamp.read? s.toList
  | _ => none

/-- A value in words. -/
def display : Value → String
  | null => "null"
  | integer i => toString i.toInt
  | decimal x => x.display
  | text s => s
  | boolean b => if b then "true" else "false"
  | instant t => t.text

end Value

end PocketSql
