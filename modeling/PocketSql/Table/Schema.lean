/-
  Table definitions.

  A `Schema` has at least one column, no two columns of one name and at most one primary key;
  `Schema.ofColumns` makes one or says what is wrong.
-/
import PocketSql.Table.Column

namespace PocketSql

/-- The first entry that occurs among those before it or before the list. -/
def firstRepeated [DecidableEq α] (seen : List α) : List α → Option α
  | [] => none
  | x :: rest => if x ∈ seen then some x else firstRepeated (x :: seen) rest

theorem firstRepeated_eq_none_iff [DecidableEq α] {seen xs : List α} :
    firstRepeated seen xs = none ↔ xs.Nodup ∧ ∀ x ∈ xs, x ∉ seen := by
  induction xs generalizing seen with
  | nil => simp [firstRepeated]
  | cons x rest ih =>
    unfold firstRepeated
    split
    · next h => simp [h]
    · next h =>
      rw [ih]
      grind

/-- The names of columns. -/
def columnNames (columns : List Column) : List String :=
  columns.map (·.name)

/-- A table definition. -/
structure Schema where
  name : String
  columns : List Column
  columns_ne_nil : columns ≠ []
  names_nodup : (columnNames columns).Nodup
  one_primaryKey : columns.countP (·.primaryKey) ≤ 1
deriving DecidableEq

namespace Schema

/-- The table of the given columns, or what keeps them from being one. -/
def ofColumns (name : String) (columns : List Column) : Except SqlError Schema :=
  if hne : columns = [] then .error (.malformed (.noColumns name))
  else
    match hrep : firstRepeated [] (columnNames columns) with
    | some column => .error (.malformed (.repeatedColumn column name))
    | none =>
      if hkey : columns.countP (·.primaryKey) ≤ 1 then
        .ok ⟨name, columns, hne, (firstRepeated_eq_none_iff.1 hrep).1, hkey⟩
      else .error (.malformed (.severalPrimaryKeys name))

/-- The column names, in order. -/
def names (s : Schema) : List String :=
  columnNames s.columns

/-- The column of a name. -/
def column? (s : Schema) (name : String) : Option Column :=
  s.columns.find? (·.name == name)

/-- The place of a column. -/
def position? (s : Schema) (name : String) : Option Nat :=
  s.columns.findIdx? (·.name == name)

/-- The primary key, if there is one. -/
def primaryKey? (s : Schema) : Option Column :=
  s.columns.find? (·.primaryKey)

/-- A column of a name, or the complaint that there is none in the table. -/
def require (s : Schema) (name : String) : Except SqlError Column :=
  match s.column? name with
  | some c => .ok c
  | none => .error (.unknownColumn name s.name)

end Schema

end PocketSql
