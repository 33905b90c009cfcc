/-
  How tables relate, as far as their columns tell.

  `relationsOf` lists, column by column, a foreign key (declared, or guessed from a name such as
  `user_id` if there is a table `users`) and then whether the column identifies rows.
-/
import PocketSql.Json.Basic
import PocketSql.Table.Column

namespace PocketSql

/-- Something that a column tells.  Columns are written with their tables. -/
inductive Relation
  /-- Values refer to another column. -/
  | foreignKey (source target : String) (guessed : Bool)
  /-- Values identify the rows of a table. -/
  | primaryKey (table column : String) (guessed : Bool)
  /-- Values do not repeat. -/
  | uniqueValues (column : String)
deriving DecidableEq, Repr

/-- The table that a column seems to refer to: `users` for `user_id`. -/
def guessedTable? (column : String) : Option String :=
  let cs := column.toList
  let stem := cs.take (cs.length - 3)
  if stem.isEmpty || cs.drop (cs.length - 3) != "_id".toList then none
  else some (String.ofList (stem ++ ['s']))

/-- The foreign key that a column tells of. -/
def foreignKeyOf (source : String) (tables : List String) (c : Column) : List Relation :=
  match c.reference with
  | some r => [.foreignKey source r.display false]
  | none =>
    match guessedTable? c.name with
    | some target =>
      if tables.contains target then [.foreignKey source s!"{target}.id" true] else []
    | none => []

/-- Whether a column identifies rows. -/
def identityOf (table source : String) (c : Column) : List Relation :=
  if c.primaryKey || c.name == "id" then [.primaryKey table source !c.primaryKey]
  else if c.unique then [.uniqueValues source]
  else []

/-- What the columns of a table tell, given the names of all tables. -/
def relationsOf (table : String) (columns : List Column) (tables : List String) :
    List Relation :=
  columns.flatMap fun c =>
    let source := s!"{table}.{c.name}"
    foreignKeyOf source tables c ++ identityOf table source c

namespace Relation

/-- A relation in words. -/
def description : Relation → String
  | foreignKey source target false => s!"{source} references {target}"
  | foreignKey source target true => s!"{source} probably references {target}"
  | primaryKey table _ _ => s!"primary key of {table}"
  | uniqueValues column => s!"{column} holds unique values"

/-- A relation as a document. -/
def toJson (r : Relation) : Json :=
  let ending (kind : String) (inferred : Bool) : List (String × Json) :=
    [("relationshipType", .text kind), ("inferred", .bool inferred),
      ("description", .text r.description)]
  match r with
  | foreignKey source target guessed =>
    .object ([("type", .text "FOREIGN_KEY"), ("from", .text source), ("to", .text target)] ++
      ending "MANY_TO_ONE" guessed)
  | primaryKey _ column guessed =>
    .object ([("type", .text "PRIMARY_KEY"), ("column", .text column)] ++ ending "UNIQUE" guessed)
  | uniqueValues column =>
    .object ([("type", .text "UNIQUE_CONSTRAINT"), ("column", .text column)] ++
      ending "UNIQUE" false)

end Relation

end PocketSql
