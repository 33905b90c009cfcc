/-
  Statements on a store.

  * `Operation.execute` runs a statement;
  * `Store.run` runs the statement that a text spells: it gives the outcome or the cause for which
    the text is refused, and the store as it is left.

  A statement that makes rows takes their instants from a clock, one for each row.
-/
import PocketSql.Ordering
import PocketSql.Settings
import PocketSql.Statement.Reader
import PocketSql.Store

namespace PocketSql

/-- What a statement gives. -/
inductive Outcome
  /-- The rows that a SELECT shows. -/
  | rows (rows : List Row)
  /-- The number of rows that another statement affected, and a message. -/
  | affected (count : Nat) (message : String)
deriving DecidableEq

/-- How many rows were treated in a way. -/
def countMessage (count : Nat) (verb : String) : String :=
  if count = 1 then s!"1 row {verb}" else s!"{count} rows {verb}"

/-! ## Conditions -/

/-- The condition that decides about rows, under the policy for clauses that are not understood;
    nothing if every row counts.  A condition that is understood reads declared columns only. -/
def resolveCondition (policy : PredicatePolicy) (schema : Schema) :
    Option Predicate → Except SqlError (Option Predicate)
  | none => .ok none
  | some p =>
    match p.unsupported?, policy with
    | some text, .reject => .error (.unsupportedPredicate text)
    | some _, .matchAll => .ok none
    | none, _ => do
      schema.requireAll p.columns
      .ok (some p)

/-- A row satisfies a condition, if there is one. -/
def meets (condition : Option Predicate) (row : Row) : Bool :=
  match condition with
  | some p => p.holds row
  | none => true

/-! ## SELECT -/

/-- The columns that a projection names. -/
def Projection.names : Projection → List String
  | all => []
  | columns names => names

/-- The part of a row that a projection shows. -/
def Projection.show (projection : Projection) (row : Row) : Row :=
  match projection with
  | all => row
  | columns names => row.project names

/-- The rows between an offset and a limit. -/
def page (offset limit : Option Nat) (rows : List α) : List α :=
  let kept := rows.drop (offset.getD 0)
  match limit with
  | some n => kept.take n
  | none => kept

namespace Store

/-- The rows that a query shows. -/
def select (settings : Settings) (query : Query) (store : Store) :
    Except SqlError (List Row) := do
  let t ← store.require query.table
  t.schema.requireAll query.projection.names
  t.schema.requireAll (query.order.map SortKey.column)
  let condition ← resolveCondition settings.predicatePolicy t.schema query.condition
  let rows ← sortRows query.order (t.scan.filter (meets condition))
  .ok ((page query.offset query.limit rows).map query.projection.show)

end Store

namespace Operation

/-! ## INSERT, UPDATE, DELETE -/

/-- Adds rows given by their values, and gives their number.  Without column names, values follow
    the table definition. -/
def insert (clock : Nat → Timestamp) (table : String) (columns : Option (List String))
    (rows : List (List Value)) : Operation Nat := do
  let t ← read (·.require table)
  let names := columns.getD t.schema.names
  if rows.all fun row => row.length == names.length then
    let inserted ← insertRows clock table (rows.map fun row => Row.ofCells (names.zip row))
    return inserted.length
  else fail .countMismatch

/-- Assigns values in the rows that meet a condition, and gives their number. -/
def update (settings : Settings) (table : String) (assignments : List (String × Value))
    (condition : Option Predicate) : Operation Nat := do
  let t ← read (·.require table)
  let condition ← read fun _ => resolveCondition settings.predicatePolicy t.schema condition
  updateRows table (meets condition) assignments

/-- Drops the rows that meet a condition, and gives their number. -/
def delete (settings : Settings) (table : String) (condition : Option Predicate) :
    Operation Nat := do
  let t ← read (·.require table)
  let condition ← read fun _ => resolveCondition settings.predicatePolicy t.schema condition
  deleteRows table (meets condition)

/-! ## CREATE TABLE, DROP TABLE -/

/-- Makes a table of columns. -/
def create (table : String) (columns : List Column) : Operation Unit := do
  let schema ← read fun _ => Schema.ofColumns table columns
  createTable schema

/-- Drops a table, and says whether there was one. -/
def drop (table : String) (ifExists : Bool) : Operation Bool := do
  if ← read fun s => .ok (ifExists && !s.has table) then return false
  else
    dropTable table
    return true

/-! ## Statements -/

/-- Runs a statement. -/
def execute (settings : Settings) (clock : Nat → Timestamp) : Statement → Operation Outcome
  | .select query => do
    let rows ← read (·.select settings query)
    return .rows rows
  | .insert table columns rows => do
    let n ← insert clock table columns rows
    return .affected n (countMessage n "inserted")
  | .update table assignments condition =>
    match settings.mutationMode with
    | .simulated => return .affected 1 "UPDATE simulated: no rows were changed"
    | .apply => do
      let n ← update settings table assignments condition
      return .affected n (countMessage n "updated")
  | .delete table condition =>
    match settings.mutationMode with
    | .simulated => return .affected 1 "DELETE simulated: no rows were removed"
    | .apply => do
      let n ← delete settings table condition
      return .affected n (countMessage n "deleted")
  | .createTable table columns => do
    create table columns
    return .affected 0 s!"Table '{table}' created"
  | .dropTable table ifExists => do
    if ← drop table ifExists then return .affected 0 s!"Table '{table}' dropped"
    else return .affected 0 s!"Table '{table}' does not exist, skipped"

/-- Runs the statement that a text spells. -/
def executeText (settings : Settings) (clock : Nat → Timestamp) (text : List Char) :
    Operation Outcome := do
  let statement ← read fun _ => parse text
  execute settings clock statement

end Operation

/-- The outcome of a text, or the cause for which it is refused, and the store after it. -/
def Store.run (settings : Settings) (clock : Nat → Timestamp) (store : Store) (text : List Char) :
    Except SqlError Outcome × Store :=
  Operation.executeText settings clock text store

end PocketSql
