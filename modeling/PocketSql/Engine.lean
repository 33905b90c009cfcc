/-
  An engine: a store and the settings under which statements run on it.

  The calls `answer`, `tables`, `detail`, `analysis` and `overview` answer with JSON documents; a call
  that fails answers with `SqlError.toJson`, and a text that breaks off with nothing.
-/
import PocketSql.Execution
import PocketSql.Json.Basic
import PocketSql.Profile
import PocketSql.Relation
import PocketSql.Sample

namespace PocketSql

/-! ## Documents of values and definitions -/

/-- A value as a document. -/
def Value.toJson : Value → Json
  | null => .null
  | integer i => .integer i.toInt
  | decimal x => .decimal x
  | text s => .text s
  | boolean b => .bool b
  | instant t => .text t.text

/-- A row as an object. -/
def Row.toJson (row : Row) : Json :=
  .object (row.cells.map fun cell => (cell.1, cell.2.toJson))

/-- A default as a document. -/
def ColumnDefault.toJson : ColumnDefault → Json
  | literal v => v.toJson
  | now => .text "NOW()"

/-- A field that is left out if it has no value. -/
def optionalField (name : String) (value : Option Json) : List (String × Json) :=
  match value with
  | some j => [(name, j)]
  | none => []

/-- A column as an object. -/
def Column.toJson (c : Column) : Json :=
  .object ([("name", .text c.name), ("type", .text c.type.display),
      ("primaryKey", .bool c.primaryKey), ("unique", .bool c.unique),
      ("nullable", .bool c.nullable)] ++
    optionalField "foreignKey" (c.reference.map fun r => .text r.display) ++
    optionalField "default" (c.default.map ColumnDefault.toJson))

/-- Columns as an object by name. -/
def columnsJson (columns : List Column) : Json :=
  .object (columns.map fun c => (c.name, c.toJson))

/-- A count. -/
def countJson (n : Nat) : Json :=
  .integer n

/-! ## Documents of answers -/

/-- The fields of a failure. -/
def failureFields (error : String) (family : ErrorFamily) : List (String × Json) :=
  [("success", .bool false), ("error", .text error), ("errorKind", .text family.name)]

/-- A failure. -/
def SqlError.toJson (cause : SqlError) : Json :=
  .object (failureFields cause.message cause.family)

/-- The fields of an outcome. -/
def Outcome.fields : Outcome → List (String × Json)
  | rows shown =>
    [("success", .bool true), ("data", .list (shown.map Row.toJson)),
      ("rowCount", countJson shown.length)]
  | affected count message =>
    [("success", .bool true), ("rowCount", countJson count), ("message", .text message)]

/-- The fields of what a text gave; nothing is answered if it broke off. -/
def resultFields : Except SqlError Outcome → Option (List (String × Json))
  | .ok outcome => some outcome.fields
  | .error cause =>
    if cause.breaksOff then none else some (failureFields cause.message cause.family)

/-- What a text gave. -/
def resultJson (result : Except SqlError Outcome) : Option Json :=
  (resultFields result).map Json.object

/-- A profile as an object. -/
def Profile.toJson (p : Profile) : Json :=
  .object [("schemaType", .text p.declaredType), ("actualType", .text p.detectedType.name),
    ("nullCount", countJson p.nullCount), ("uniqueCount", countJson p.uniqueCount),
    ("sampleValues", .list (p.samples.map Value.toJson))]

/-- The profiles of the columns of a table. -/
def analysisJson (table : String) (rowCount : Nat) (profiles : List (String × Profile)) : Json :=
  .object [("success", .bool true), ("tableName", .text table), ("rowCount", countJson rowCount),
    ("analysis", .object (profiles.map fun p => (p.1, p.2.toJson)))]

/-! ## The engine -/

/-- A store and the settings under which statements run on it. -/
structure Engine where
  settings : Settings
  store : Store

namespace Engine

/-- An engine with a new store. -/
def ofSettings (settings : Settings) (clock : Nat → Timestamp) : Engine :=
  ⟨settings, .ofSettings settings clock⟩

/-- What a text gives, and the engine after it. -/
def run (clock : Nat → Timestamp) (e : Engine) (text : List Char) :
    Except SqlError Outcome × Engine :=
  let (result, store) := e.store.run e.settings clock text
  (result, { e with store := store })

/-- The fields of what a text gives, and the engine after it.  A blank text is asked for again. -/
def answer (clock : Nat → Timestamp) (e : Engine) (text : List Char) :
    Option (List (String × Json)) × Engine :=
  if (trim text).isEmpty then (some (failureFields "enter a valid SQL query" .malformedText), e)
  else
    let (result, e) := e.run clock text
    (resultFields result, e)

/-- An answer with the time it took. -/
def timedJson (fields : List (String × Json)) (milliseconds : Nat) : Json :=
  .object (fields ++ [("executionTime", countJson milliseconds)])

/-- The names of all tables. -/
def tables (e : Engine) : Json :=
  .object [("success", .bool true), ("tables", .list (e.store.names.map Json.text))]

/-- The definition and all rows of a table. -/
def detail (name : String) (e : Engine) : Except SqlError Json := do
  let t ← e.store.require name
  let rows := t.scan
  .ok (.object [("success", .bool true), ("tableName", .text name),
    ("schema", columnsJson t.schema.columns), ("data", .list (rows.map Row.toJson)),
    ("rowCount", countJson rows.length)])

/-- The number of rows of a table, and the profiles of its columns. -/
def profiles (name : String) (e : Engine) : Except SqlError (Nat × List (String × Profile)) := do
  let t ← e.store.require name
  let rows := t.scan
  .ok (rows.length, profileColumns t.schema.columns rows)

/-- The profiles of the columns of a table, as a document. -/
def analysis (name : String) (e : Engine) : Except SqlError Json := do
  let (rowCount, profiles) ← e.profiles name
  .ok (analysisJson name rowCount profiles)

/-- A table with its first rows and what its columns tell. -/
def tableOverview (e : Engine) (t : Table) : Json :=
  .object [("schema", columnsJson t.schema.columns),
    ("sampleData", .list ((t.scan.take e.settings.sampleRows).map Row.toJson)),
    ("rowCount", countJson t.rows.length),
    ("columns", .list (t.schema.names.map Json.text)),
    ("relations", .list ((relationsOf t.name t.schema.columns e.store.names).map
      Relation.toJson))]

/-- All tables, in the order of their creation. -/
def overview (e : Engine) : Json :=
  .object [("success", .bool true),
    ("schemas", .object (e.store.tables.map fun t => (t.name, e.tableOverview t))),
    ("tableCount", countJson e.store.tables.length)]

end Engine

end PocketSql
