/-
  Conditions on rows.

  * `Predicate` is the condition of a WHERE clause; a clause that is not understood is kept as text;
  * `Predicate.holds` says which rows satisfy it.  A comparison with an absent value fails, and a
    clause that is not understood holds of every row;
  * `Predicate.columns` are the columns it reads, `Predicate.unsupported?` is its first part that is
    not understood.
-/
import PocketSql.Table.Row

namespace PocketSql

/-- The comparison signs. -/
inductive CompareOp
  | eq | ne | lt | le | gt | ge
deriving DecidableEq, Repr

/-- A condition on rows. -/
inductive Predicate
  | compare (column : String) (op : CompareOp) (value : Value)
  /-- The absent value stands in a column; or, if negated, does not. -/
  | isNull (column : String) (negated : Bool)
  | and (left right : Predicate)
  | or (left right : Predicate)
  | not (inner : Predicate)
  /-- A clause that is not understood. -/
  | unsupported (text : String)
deriving DecidableEq

/-- A comparison of a cell with a literal. -/
def CompareOp.holds (op : CompareOp) (cell literal : Value) : Bool :=
  if cell.isNull || literal.isNull then false
  else
    match op with
    | eq => cell.looselyEquals literal
    | ne => !cell.looselyEquals literal
    | lt => cell.compare? literal == some .lt
    | le => cell.compare? literal == some .lt || cell.compare? literal == some .eq
    | gt => cell.compare? literal == some .gt
    | ge => cell.compare? literal == some .gt || cell.compare? literal == some .eq

namespace Predicate

/-- A row satisfies a condition. -/
def holds (row : Row) : Predicate → Bool
  | compare column op value => op.holds (row.getD column) value
  | isNull column negated => (row.getD column).isNull != negated
  | and left right => left.holds row && right.holds row
  | or left right => left.holds row || right.holds row
  | not inner => !inner.holds row
  | unsupported _ => true

/-- The columns that a condition reads, in order of appearance. -/
def columns : Predicate → List String
  | compare column _ _ | isNull column _ => [column]
  | and left right | or left right => left.columns ++ right.columns
  | not inner => inner.columns
  | unsupported _ => []

/-- The first part of a condition that is not understood. -/
def unsupported? : Predicate → Option String
  | unsupported text => some text
  | and left right | or left right => left.unsupported?.or right.unsupported?
  | not inner => inner.unsupported?
  | compare _ _ _ | isNull _ _ => none

end Predicate

end PocketSql
