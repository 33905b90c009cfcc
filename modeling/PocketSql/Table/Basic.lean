/-
  Tables: a definition and rows in the order of their insertion.

  * `Table.scan` are the rows with their column names;
  * `Table.insertRows` completes rows one after the other (`Schema.complete`: each column in order
    takes the given value, the next number, its default or the absent value), refuses one that
    repeats an identity of a unique column, and appends them, all or none.  What it knows of the
    rows before, the highest number and the identities, goes along in a `Batch`;
  * `Table.update` assigns values in the rows that satisfy a condition: it lists the rows that
    change (`Table.replacements`), checks the rows with the changes merged in (`mergeFrom`), and
    then writes the changes to their places (`writeAll`);
  * `Table.delete` drops the rows that satisfy a condition.
-/
import PocketSql.Table.KeySet
import PocketSql.Table.Row

namespace PocketSql

/-- A table. -/
structure Table where
  schema : Schema
  rows : List Tuple

namespace Schema

/-- A stored row with its column names. -/
def rowOf (s : Schema) (tuple : Tuple) : Row :=
  ⟨s.names.zip tuple⟩

/-! ## Completion of new rows -/

/-- The highest number after a row: that of the column that numbers the rows, if it is higher. -/
def raiseSerial (s : Schema) (highest : Int) (tuple : Tuple) : Int :=
  match s.columns.findIdx? Column.isAutoIncrement with
  | some i => match (tuple.cell i).whole? with
    | some n => max highest n
    | none => highest
  | none => highest

/-- The highest number in the column that numbers the rows, at least 0. -/
def highestSerial (s : Schema) (rows : List Tuple) : Int :=
  rows.foldl s.raiseSerial 0

/-- The number after the highest one, if it fits in 64 bits. -/
def nextSerial (highest : Int) (column : String) : Except SqlError Value :=
  if highest + 1 < signedLimit then .ok (.integer (Int64.ofInt (highest + 1)))
  else .error (.invalidValue column "SERIAL exhausted")

/-- What a new row holds in a column: the given value, the next number, the default, or nothing. -/
def newCell (instant : Timestamp) (highest : Int) (given : Option Value) (c : Column) :
    Except SqlError Value :=
  match given with
  | some v => c.type.coerce c.name v
  | none =>
    if c.isAutoIncrement then nextSerial highest c.name
    else match c.default with
      | some d => .ok (d.valueAt instant)
      | none => .ok .null

/-- A value that a column may hold. -/
def checkNull (c : Column) (v : Value) : Except SqlError Value :=
  if v.isNull && !c.nullable then .error (.nullNotAllowed c.name) else .ok v

/-- The cell of a new row in each of some columns.  All columns that default to `NOW()` hold the one
    instant of the row; a clock that is read for each of them anew can go on in between, so that the
    later ones would hold a later instant. -/
def newCells (instant : Timestamp) (highest : Int) (row : Row) :
    List Column → Except SqlError Tuple
  | [] => .ok []
  | c :: columns => do
    let v ← newCell instant highest (row.get? c.name) c
    let v ← checkNull c v
    let rest ← newCells instant highest row columns
    .ok (v :: rest)

/-- All of some names are columns of the table. -/
def requireAll (s : Schema) : List String → Except SqlError Unit
  | [] => .ok ()
  | name :: names => do
    let _ ← s.require name
    requireAll s names

/-- The stored form of a new row: its names must be columns. -/
def complete (s : Schema) (instant : Timestamp) (highest : Int) (row : Row) :
    Except SqlError Tuple := do
  s.requireAll row.names
  newCells instant highest row s.columns

end Schema

/-! ## Batches of new rows -/

/-- What is known of the rows before a new one: the highest number and the identities. -/
structure Batch where
  highest : Int
  keySets : List KeySet

/-- What is known of some rows. -/
def Batch.ofRows (s : Schema) (rows : List Tuple) : Batch :=
  ⟨s.highestSerial rows, s.keySets rows⟩

namespace Schema

/-- The stored form of a new row made at an instant, and what is known after it. -/
def prepareRow (s : Schema) (instant : Timestamp) (batch : Batch) (row : Row) :
    Except SqlError (Tuple × Batch) := do
  let tuple ← s.complete instant batch.highest row
  let sets ← enroll tuple batch.keySets
  .ok (tuple, ⟨s.raiseSerial batch.highest tuple, sets⟩)

/-- The stored forms of new rows, made one after the other at the instants `clock 0`, `clock 1` and
    so on. -/
def prepareRows (s : Schema) (clock : Nat → Timestamp) (batch : Batch) :
    List Row → Except SqlError (List Tuple)
  | [] => .ok []
  | row :: rows => do
    let (tuple, batch) ← s.prepareRow (clock 0) batch row
    let tuples ← prepareRows s (fun i => clock (i + 1)) batch rows
    .ok (tuple :: tuples)

/-! ## Assignments -/

/-- Assignments by column names as ones by places, with the values the columns will hold. -/
def resolve (s : Schema) : List (String × Value) → Except SqlError (List (Nat × Value))
  | [] => .ok []
  | (name, v) :: assignments => do
    let c ← s.require name
    let v ← c.type.coerce c.name v
    let v ← checkNull c v
    let rest ← resolve s assignments
    .ok (((s.position? name).getD 0, v) :: rest)

end Schema

/-! ## Changes of stored rows -/

/-- Rows of which the first has the place `i`, with changes merged in.  The changes stand in the
    order of their places. -/
def mergeFrom (i : Nat) : List (Nat × Tuple) → List Tuple → List Tuple
  | [], rows => rows
  | _ :: _, [] => []
  | (place, new) :: changes, tuple :: rows =>
    if place = i then new :: mergeFrom (i + 1) changes rows
    else tuple :: mergeFrom (i + 1) ((place, new) :: changes) rows

/-- Rows after changes are written to their places. -/
def writeAll (changes : List (Nat × Tuple)) (rows : List Tuple) : List Tuple :=
  changes.foldl (fun rows change => rows.set change.1 change.2) rows

namespace Table

/-- The name of a table. -/
def name (t : Table) : String :=
  t.schema.name

/-- A table without rows. -/
def ofSchema (s : Schema) : Table :=
  ⟨s, []⟩

/-- The rows with their column names. -/
def scan (t : Table) : List Row :=
  t.rows.map t.schema.rowOf

/-- A stored row satisfies a condition on named rows. -/
def selects (t : Table) (p : Row → Bool) (tuple : Tuple) : Bool :=
  p (t.schema.rowOf tuple)

/-- The table with several rows, made one after the other at the instants of a clock, and those
    rows. -/
def insertRows (clock : Nat → Timestamp) (rows : List Row) (t : Table) :
    Except SqlError (List Tuple × Table) := do
  let tuples ← t.schema.prepareRows clock (.ofRows t.schema t.rows) rows
  .ok (tuples, { t with rows := t.rows ++ tuples })

/-- The rows that satisfy a condition after assignments, each with its place. -/
def replacements (t : Table) (p : Row → Bool) (places : List (Nat × Value)) :
    List (Nat × Tuple) :=
  t.rows.zipIdx.filterMap fun (tuple, i) =>
    if t.selects p tuple then some (i, tuple.assign places) else none

/-- The table with values assigned in the rows that satisfy a condition, and their number. -/
def update (p : Row → Bool) (assignments : List (String × Value)) (t : Table) :
    Except SqlError (Nat × Table) := do
  let places ← t.schema.resolve assignments
  let changes := t.replacements p places
  let _ ← enrollAll t.schema.emptyKeySets (mergeFrom 0 changes t.rows)
  .ok (changes.length, { t with rows := writeAll changes t.rows })

/-- The table without the rows that satisfy a condition, and their number. -/
def delete (p : Row → Bool) (t : Table) : Nat × Table :=
  let kept := t.rows.filter fun tuple => !t.selects p tuple
  (t.rows.length - kept.length, { t with rows := kept })

end Table

end PocketSql
