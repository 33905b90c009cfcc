/-
  The program: what a command line and the texts it reads make it write.

  `runProgram` is the whole program as a function of its arguments, of the files it may read, of its
  input and of the clock.
-/
import PocketSql.Settings
import PocketSql.Shell.Basic

namespace PocketSql

/-- What a file holds, or why it cannot be read. -/
abbrev FileReader := String → Except String String

/-- The settings that options ask for. -/
def Options.load (o : Options) (read : FileReader) : Except SqlError Settings :=
  match o.config with
  | .none => .ok (o.settings .standard)
  | .some file =>
    match read file with
    | .error reason => .error (.badSettings s!"cannot read {file}: {reason}")
    | .ok text =>
      match Settings.ofJsonText text with
      | .ok base => .ok (o.settings base)
      | .error cause => .error cause

/-- The complaint about settings that cannot be loaded. -/
def settingsFailure (file : Option String) (cause : SqlError) : Transcript :=
  ⟨[fatalOutput ("failed to load config from " ++ file.getD "") (some cause.message)], 1⟩

/-- The complaint about a command line that is not understood. -/
def usageFailure : Transcript :=
  ⟨[.err "error: invalid arguments\n"], 2⟩

/-- The shell with which a session begins. -/
def startShell (o : Options) (settings : Settings) (clock : Nat → Timestamp) : Shell :=
  ⟨.ofSettings settings clock, o.json, []⟩

/-- What the program writes.  A new store takes its instants from `clocks 0`, and the line number `n`
    of the input from `clocks (n + 1)`. -/
def runProgram (clocks : Nat → Nat → Timestamp) (read : FileReader) (args : List String)
    (input : List Char) : Transcript :=
  match Command.read? args with
  | none => usageFailure
  | some .version => ⟨[.out versionLine], 0⟩
  | some (.start o) =>
    match o.load read with
    | .error cause => settingsFailure o.config cause
    | .ok settings =>
      let shell := startShell o settings (clocks 0)
      match o.statement with
      | some text => runStatement (clocks 1) shell.engine o.json text
      | none => shell.session (fun n => clocks (n + 1)) (splitLines input)

end PocketSql
