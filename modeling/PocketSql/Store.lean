/-
  The store: tables in the order of their creation, and the operations on it.

  An `Operation` runs on a store and leaves one, whether it succeeds or fails: what it has written
  before it fails stays written.  All operations check first and write last
  (`createTable`, `dropTable`, `insertRows`, `updateRows`, `deleteRows`).
-/
import PocketSql.Table.Basic

namespace PocketSql

/-- Tables in the order of their creation. -/
structure Store where
  tables : List Table

namespace Store

/-- The store without tables. -/
def empty : Store := ⟨[]⟩

/-! ## Looking up -/

/-- The table names, in the order of creation. -/
def names (s : Store) : List String :=
  s.tables.map (·.name)

/-- The table of a name. -/
def table? (s : Store) (name : String) : Option Table :=
  s.tables.find? (·.name == name)

/-- There is a table of a name. -/
def has (s : Store) (name : String) : Bool :=
  s.tables.any (·.name == name)

/-- The table of a name, or the complaint that there is none. -/
def require (s : Store) (name : String) : Except SqlError Table :=
  match s.table? name with
  | some t => .ok t
  | none => .error (.unknownTable name)

/-- The definition of a table. -/
def schema? (s : Store) (name : String) : Option Schema :=
  (s.table? name).map (·.schema)

/-- The rows of a table, with their column names. -/
def scan (name : String) (s : Store) : Except SqlError (List Row) := do
  let t ← s.require name
  .ok t.scan

/-- The number of rows of a table. -/
def count (name : String) (s : Store) : Except SqlError Nat := do
  let t ← s.require name
  .ok t.rows.length

/-! ## Single changes -/

/-- The store with a new table at the end. -/
def add (table : Table) (s : Store) : Store :=
  ⟨s.tables ++ [table]⟩

/-- The store without the table of a name. -/
def remove (name : String) (s : Store) : Store :=
  ⟨s.tables.filter fun t => t.name != name⟩

/-- The store with a table in the place of the one of its name. -/
def put (table : Table) (s : Store) : Store :=
  ⟨s.tables.map fun t => if t.name == table.name then table else t⟩

end Store

/-! ## Operations -/

/-- What runs on a store: it gives a result or a cause of failure, and the store as it is left. -/
def Operation (α : Type) : Type :=
  Store → Except SqlError α × Store

namespace Operation

/-- One operation after another; after a failure nothing more is done, and nothing is undone. -/
instance : Monad Operation where
  pure a s := (.ok a, s)
  bind op next s :=
    match op s with
    | (.ok a, s) => next a s
    | (.error cause, s) => (.error cause, s)

/-- Gives up. -/
def fail (cause : SqlError) : Operation α :=
  fun s => (.error cause, s)

/-- Looks at the store. -/
def read (look : Store → Except SqlError α) : Operation α :=
  fun s => (look s, s)

/-- Changes the store. -/
def write (change : Store → Store) : Operation Unit :=
  fun s => (.ok (), change s)

/-- What an operation gives and the store after it, if it succeeds. -/
def outcome (op : Operation α) (s : Store) : Except SqlError (α × Store) :=
  match op s with
  | (.ok a, s) => .ok (a, s)
  | (.error cause, _) => .error cause

/-- Makes a table without rows. -/
def createTable (schema : Schema) : Operation Unit := do
  if ← read fun s => .ok (s.has schema.name) then fail (.tableExists schema.name)
  else write (·.add (.ofSchema schema))

/-- Drops a table with its rows. -/
def dropTable (name : String) : Operation Unit := do
  if ← read fun s => .ok (s.has name) then write (·.remove name)
  else fail (.unknownTable name)

/-- Adds rows to a table at the instants of a clock, and gives them. -/
def insertRows (clock : Nat → Timestamp) (name : String) (rows : List Row) :
    Operation (List Row) := do
  let t ← read (·.require name)
  let (tuples, changed) ← read fun _ => t.insertRows clock rows
  write (·.put changed)
  return tuples.map t.schema.rowOf

/-- Adds a row to a table at an instant, and gives it. -/
def insertRow (instant : Timestamp) (name : String) (row : Row) : Operation Row := do
  let inserted ← insertRows (fun _ => instant) name [row]
  match inserted.getLast? with
  | some row => return row
  | none => fail (.malformed .noRow)

/-- Assigns values in the rows of a table that satisfy a condition, and gives their number. -/
def updateRows (name : String) (p : Row → Bool) (assignments : List (String × Value)) :
    Operation Nat := do
  let t ← read (·.require name)
  let (n, changed) ← read fun _ => t.update p assignments
  write (·.put changed)
  return n

/-- Drops the rows of a table that satisfy a condition, and gives their number. -/
def deleteRows (name : String) (p : Row → Bool) : Operation Nat := do
  let t ← read (·.require name)
  let (n, changed) := t.delete p
  write (·.put changed)
  return n

end Operation

/-! ## Operations that succeed -/

namespace Store

/-- The store with a new table, which has no rows. -/
def create (schema : Schema) (s : Store) : Except SqlError Store := do
  let (_, s) ← (Operation.createTable schema).outcome s
  .ok s

/-- The store without a table. -/
def drop (name : String) (s : Store) : Except SqlError Store := do
  let (_, s) ← (Operation.dropTable name).outcome s
  .ok s

/-- The store with rows added to a table at the instants of a clock, and those rows. -/
def insertRows (clock : Nat → Timestamp) (name : String) (rows : List Row) (s : Store) :
    Except SqlError (List Row × Store) :=
  (Operation.insertRows clock name rows).outcome s

/-- The store with a row added to a table at an instant, and that row. -/
def insertRow (instant : Timestamp) (name : String) (row : Row) (s : Store) :
    Except SqlError (Row × Store) :=
  (Operation.insertRow instant name row).outcome s

/-- The store with values assigned in the rows of a table that satisfy a condition, and their
    number. -/
def updateRows (name : String) (p : Row → Bool) (assignments : List (String × Value))
    (s : Store) : Except SqlError (Nat × Store) :=
  (Operation.updateRows name p assignments).outcome s

/-- The store without the rows of a table that satisfy a condition, and their number. -/
def deleteRows (name : String) (p : Row → Bool) (s : Store) : Except SqlError (Nat × Store) :=
  (Operation.deleteRows name p).outcome s

end Store

/-! ## Validity -/

/-- A stored row has a value for each column, and an absent one only where the column allows it. -/
structure Schema.Fits (s : Schema) (tuple : Tuple) : Prop where
  length_eq : tuple.length = s.columns.length
  nullable : ∀ i c, s.columns[i]? = some c → tuple.cell i = .null → c.nullable = true

/-- Two stored rows hold the same identity in no unique column. -/
def Schema.Apart (s : Schema) (a b : Tuple) : Prop :=
  ∀ i c, s.columns[i]? = some c → c.isUnique = true →
    ∀ key, (a.cell i).key? = some key → (b.cell i).key? ≠ some key

/-- Every row fits the columns, and no two rows share a value of a unique column. -/
structure Table.Valid (t : Table) : Prop where
  fits : ∀ tuple ∈ t.rows, t.schema.Fits tuple
  apart : t.rows.Pairwise t.schema.Apart

/-- No two tables share a name, and every table is valid. -/
structure Store.Valid (s : Store) : Prop where
  names_nodup : s.names.Nodup
  tables : ∀ t ∈ s.tables, t.Valid

theorem Schema.Apart.symm {s : Schema} {a b : Tuple} (h : s.Apart a b) : s.Apart b a :=
  fun i c hc hu key hb ha => h i c hc hu key ha hb

theorem Table.valid_ofSchema (s : Schema) : (Table.ofSchema s).Valid where
  fits _ h := nomatch h
  apart := .nil

theorem Store.valid_empty : Store.empty.Valid where
  names_nodup := .nil
  tables _ h := nomatch h

end PocketSql
