/-
  Statements: a `Query` is what a SELECT asks for, and `Statement` has one constructor for each kind
  of statement.
-/
import PocketSql.Predicate.Basic
import PocketSql.Table.Column

namespace PocketSql

/-- The columns that a SELECT shows. -/
inductive Projection
  | all
  | columns (names : List String)
deriving DecidableEq

/-- A column to sort by. -/
structure SortKey where
  column : String
  ascending : Bool
deriving DecidableEq

/-- A question about the rows of a table. -/
structure Query where
  projection : Projection
  table : String
  condition : Option Predicate
  order : List SortKey
  /-- The most rows to show. -/
  limit : Option Nat
  /-- How many rows to pass over before the first one shown. -/
  offset : Option Nat
deriving DecidableEq

/-- The statements of the language. -/
inductive Statement
  | select (query : Query)
  /-- New rows; without column names they follow the table definition. -/
  | insert (table : String) (columns : Option (List String)) (rows : List (List Value))
  | update (table : String) (assignments : List (String × Value)) (condition : Option Predicate)
  | delete (table : String) (condition : Option Predicate)
  | createTable (table : String) (columns : List Column)
  | dropTable (table : String) (ifExists : Bool)
deriving DecidableEq

/-- The table that a statement names. -/
def Statement.table : Statement → String
  | select query => query.table
  | insert table .. | update table .. | delete table _ | createTable table _ | dropTable table _ =>
    table

end PocketSql
