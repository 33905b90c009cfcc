/-
  Named rows.

  A `Row` lists cells in order, no two of one name.  `Row.put` replaces a cell where it stands or
  adds one at the end; `Row.project` picks cells by name.
-/
import PocketSql.Value.Compare

namespace PocketSql

/-- The cells of a row, with their column names. -/
structure Row where
  cells : List (String × Value)
deriving DecidableEq

namespace Row

/-- The row without cells. -/
def empty : Row := ⟨[]⟩

/-- Cells with one replaced where it stands, or added at the end. -/
def putCell (name : String) (value : Value) : List (String × Value) → List (String × Value)
  | [] => [(name, value)]
  | cell :: rest =>
    if cell.1 = name then (name, value) :: rest else cell :: putCell name value rest

/-- A row with a cell replaced or added. -/
def put (row : Row) (name : String) (value : Value) : Row :=
  ⟨putCell name value row.cells⟩

/-- The row built from cells in order; a later cell replaces an earlier one of its name. -/
def ofCells (cells : List (String × Value)) : Row :=
  cells.foldl (fun row cell => row.put cell.1 cell.2) empty

/-- The value in a column. -/
def get? (row : Row) (name : String) : Option Value :=
  row.cells.lookup name

/-- The value in a column, absent if there is no such column. -/
def getD (row : Row) (name : String) : Value :=
  (row.get? name).getD .null

/-- The column names. -/
def names (row : Row) : List String :=
  row.cells.map (·.1)

/-- The cells of the given columns, in the order given; a repeated column comes once. -/
def project (row : Row) (columns : List String) : Row :=
  ofCells (columns.filterMap fun name => (row.get? name).map fun value => (name, value))

end Row

end PocketSql
