/-
  The interactive shell.

  A `Shell` holds an engine and the lines of a statement that is not complete yet.  `Shell.step` takes
  one line of input: a line that begins with a point is a command unless a statement is being
  entered, and a statement is run when a line of it ends with `;`.  What is written is a list of
  `Output`s, on one of two channels; a whole `Transcript` also has the exit code.  The program ends
  when the shell is left, and also when a statement breaks off.  Rows are drawn as a grid
  (`drawGrid`).
-/
import PocketSql.Engine
import PocketSql.Shell.Options

namespace PocketSql

/-! ## Grids -/

/-- A text with spaces after it up to a width. -/
def padTo (width : Nat) (text : String) : String :=
  text ++ String.ofList (List.replicate (width - text.length) ' ')

/-- The cell of a row in a column; a cell that is not there is empty. -/
def gridCell (row : List String) (i : Nat) : String :=
  row.getD i ""

/-- The widths of the columns of a header, over some rows. -/
def gridWidths (header : List String) (rows : List (List String)) : List Nat :=
  header.zipIdx.map fun (title, i) =>
    rows.foldl (fun width row => max width (gridCell row i).length) title.length

/-- A line across all columns. -/
def gridRule (left middle right : String) (widths : List Nat) : String :=
  left ++ middle.intercalate (widths.map fun w => String.ofList (List.replicate (w + 2) '─')) ++
    right ++ "\n"

/-- A row of cells. -/
def gridRow (widths : List Nat) (row : List String) : String :=
  "│" ++ "│".intercalate (widths.zipIdx.map fun (w, i) => " " ++ padTo w (gridCell row i) ++ " ") ++
    "│\n"

/-- A header and rows, drawn with lines. -/
def drawGrid (header : List String) (rows : List (List String)) : String :=
  let widths := gridWidths header rows
  gridRule "┌" "┬" "┐" widths ++ gridRow widths header ++ gridRule "├" "┼" "┤" widths ++
    "".intercalate (rows.map (gridRow widths)) ++ gridRule "└" "┴" "┘" widths

/-! ## The shell -/

/-- A text written on a channel. -/
inductive Output
  | out (text : String)
  | err (text : String)
deriving DecidableEq, Repr

/-- What a program writes, and its exit code. -/
structure Transcript where
  outputs : List Output
  code : Nat
deriving DecidableEq, Repr

/-- A transcript with outputs before it. -/
def Transcript.after (outputs : List Output) (t : Transcript) : Transcript :=
  { t with outputs := outputs ++ t.outputs }

/-- The shell between two lines of input. -/
structure Shell where
  engine : Engine
  /-- Results are written as JSON. -/
  json : Bool
  /-- The lines of the statement being entered, each with its newline. -/
  pending : List Char

/-! ## Texts -/

/-- The most characters of a cell that are shown. -/
def cellLimit : Nat := 50

/-- A value in a cell; a long one is cut. -/
def cellText (v : Value) : String :=
  let text := if v.isNull then "NULL" else v.display
  if cellLimit < text.length then String.ofList (text.toList.take (cellLimit - 3)) ++ "..." else text

/-- A line on the error channel. -/
def errorLine (message : String) : Output :=
  .err s!"Error: {message}\n"

/-- The rows of a query. -/
def rowsText (rows : List Row) : String :=
  match rows with
  | [] => "(no rows)\n"
  | first :: _ =>
    drawGrid first.names (rows.map fun row => row.cells.map fun cell => cellText cell.2) ++
      s!"{rows.length} row(s) returned\n"

/-- What a statement gave; nothing if it broke off. -/
def resultOutput (json : Bool) (result : Except SqlError Outcome) : Option Output :=
  if json then (resultJson result).map fun answer => .out (answer.pretty ++ "\n")
  else
    match result with
    | .ok (.rows rows) => some (.out (rowsText rows))
    | .ok (.affected _ message) => some (.out (message ++ "\n"))
    | .error cause => if cause.breaksOff then none else some (errorLine cause.message)

/-- The greeting. -/
def banner : String :=
  "querylab v0.1.0\nType '.help' for help, '.exit' to quit\n\n"

/-- What is written on leaving. -/
def farewell : String :=
  "Goodbye!\n"

/-- The answer to `--version`. -/
def versionLine : String :=
  "querylab-cli 0.1.0\n"

/-- The answer to `.help`. -/
def helpText : String :=
  "
Commands:
  .help              Show this help
  .exit, .quit       Leave the shell
  .tables            List tables
  .schema [table]    Show column definitions
  .relations         Show primary, unique and foreign keys
  .analyze <table>   Null/distinct counts and detected type per column

Examples:
  SELECT * FROM users WHERE age > 26;
  INSERT INTO users (name, email, age) VALUES ('Ayşe', 'ayse@example.com', 22);
  CREATE TABLE products (id SERIAL PRIMARY KEY, name VARCHAR(100), price DECIMAL);
  DROP TABLE products;

"

/-! ## Commands -/

/-- The constraints of a column, in words. -/
def constraintsText (c : Column) : String :=
  " ".intercalate <|
    (if c.primaryKey then ["PRIMARY KEY"] else if c.unique then ["UNIQUE"] else []) ++
    (if !c.nullable && !c.primaryKey then ["NOT NULL"] else []) ++
    (match c.reference with
      | some r => [s!"REFERENCES {r.display}"]
      | none => [])

/-- The definition of a table. -/
def schemaText (s : Schema) : String :=
  s!"Table: {s.name}\n" ++
    drawGrid ["column", "type", "constraints"]
      (s.columns.map fun c => [c.name, c.type.display, constraintsText c])

/-- A profile as cells. -/
def profileCells (name : String) (p : Profile) : List String :=
  [name, p.declaredType, p.detectedType.name, toString p.nullCount, toString p.uniqueCount,
    ", ".intercalate (p.samples.map cellText)]

/-- The profiles of the columns of a table. -/
def profilesText (profiles : List (String × Profile)) : String :=
  if profiles.isEmpty then "(no rows)\n"
  else
    drawGrid ["column", "declared", "detected", "nulls", "distinct", "samples"]
      (profiles.map fun (name, p) => profileCells name p)

/-- The table names, one a line. -/
def tablesText (names : List String) : String :=
  if names.isEmpty then "No tables\n"
  else "".intercalate (names.map fun name => s!"  {name}\n")

/-- What the columns of all tables tell, one relation a line. -/
def relationsText (store : Store) : String :=
  "".intercalate (store.tables.flatMap fun t =>
    (relationsOf t.name t.schema.columns store.names).map fun r => s!"  {r.description}\n")

/-- The answer to a command about a table. -/
def tableCommand (store : Store) (name : String) (describe : Table → String) : Output :=
  match store.table? name with
  | some t => .out (describe t)
  | none => errorLine s!"table not found: {name}"

/-- The answer to a command other than those that leave the shell. -/
def commandOutput (store : Store) (line : List Char) : Output :=
  match (words line).map String.ofList with
  | ".help" :: _ => .out helpText
  | ".tables" :: _ => .out (tablesText store.names)
  | ".schema" :: name :: _ => tableCommand store name fun t => schemaText t.schema
  | [".schema"] => .out ("".intercalate (store.tables.map fun t => schemaText t.schema ++ "\n"))
  | ".analyze" :: name :: _ =>
    tableCommand store name fun t => profilesText (profileColumns t.schema.columns t.scan)
  | [".analyze"] => errorLine "usage: .analyze <table>"
  | ".relations" :: _ => .out (relationsText store)
  | _ => errorLine ("unknown command " ++ String.ofList line ++ " (try .help)")

/-- A line leaves the shell. -/
def leaves (line : List Char) : Bool :=
  match (words line).map String.ofList with
  | ".exit" :: _ => true
  | ".quit" :: _ => true
  | _ => false

/-! ## Lines of input -/

/-- The end of a program that is left. -/
def leaving : Transcript :=
  ⟨[.out farewell], 0⟩

/-- The end of a program whose statement breaks off. -/
def breakingOff : Transcript :=
  ⟨[.err (SqlError.contradictoryOrder.message ++ "\n")], 101⟩

/-- What a line of input does. -/
inductive Step
  /-- The shell goes on. -/
  | go (shell : Shell) (outputs : List Output)
  /-- The program ends. -/
  | stop (transcript : Transcript)

namespace Shell

/-- What is written before a line is read. -/
def prompt (s : Shell) : String :=
  if s.pending.isEmpty then "querylab> " else "       -> "

/-- What a statement does that gave a result and left an engine. -/
def afterRun (s : Shell) (result : Except SqlError Outcome) (engine : Engine) : Step :=
  match resultOutput s.json result with
  | some output => .go { s with engine := engine, pending := [] } [output]
  | none => .stop breakingOff

/-- A line of a statement; the statement is run if the line ends it. -/
def addLine (clock : Nat → Timestamp) (s : Shell) (line : List Char) : Step :=
  let text := s.pending ++ line ++ ['\n']
  if line.getLast? = some ';' then
    let (result, engine) := s.engine.run clock text
    s.afterRun result engine
  else .go { s with pending := text } []

/-- What a line of input does; blanks around it do not count. -/
def step (clock : Nat → Timestamp) (s : Shell) (input : List Char) : Step :=
  let line := trim input
  if line.head? = some '.' && s.pending.isEmpty then
    if leaves line then .stop leaving else .go s [commandOutput s.engine.store line]
  else if line.isEmpty then .go s []
  else s.addLine clock line

/-- What is written over some lines of input, the line number `n` being read at `clocks n`. -/
def runLines (clocks : Nat → Nat → Timestamp) (s : Shell) : List (List Char) → Transcript
  | [] => leaving.after [.out s.prompt]
  | line :: lines =>
    match s.step (clocks 0) line with
    | .stop transcript => transcript.after [.out s.prompt]
    | .go next outputs =>
      (runLines (fun n => clocks (n + 1)) next lines).after (.out s.prompt :: outputs)

/-- A whole session: the greeting and the lines. -/
def session (clocks : Nat → Nat → Timestamp) (s : Shell) (lines : List (List Char)) : Transcript :=
  (s.runLines clocks lines).after [.out banner]

end Shell

/-! ## The command line -/

/-- A fatal error, and what caused it. -/
def fatalOutput (message : String) (cause : Option String) : Output :=
  match cause with
  | some detail => errorLine (message ++ "\n\nCaused by:\n    " ++ detail)
  | none => errorLine message

/-- What running a single statement writes. -/
def runStatement (clock : Nat → Timestamp) (engine : Engine) (json : Bool) (text : String) :
    Transcript :=
  let (result, _) := engine.run clock text.toList
  match resultOutput json result, result with
  | none, _ => breakingOff
  | some output, .ok _ => ⟨[output], 0⟩
  | some output, .error _ => ⟨[output, fatalOutput "statement failed" none], 1⟩

/-- The lines of a text; a newline at its end begins no further line. -/
def splitLines : List Char → List (List Char)
  | [] => []
  | c :: rest =>
    if c = '\n' then [] :: splitLines rest
    else match splitLines rest with
      | [] => [[c]]
      | line :: lines => (c :: line) :: lines

end PocketSql
