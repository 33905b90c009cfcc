/-
  The command line.

  Only reading and writing happens here: what a line of input does is decided by `Shell.step`, and
  what a command line asks for by `Command.read?` and `Options.load`.
-/
import PocketSql.Shell.Program
import Std.Time

namespace PocketSql

/-- A clock that begins at the present instant and goes on by one nanosecond for each row. -/
def presentClock : IO (Nat → Timestamp) := do
  let present ← Std.Time.Timestamp.now
  let start := present.toNanosecondsSinceUnixEpoch.val.toNat
  return fun i => .ofNanos (start + i)

/-- Writes a text on its channel. -/
def emit : Output → IO Unit
  | .out text => do
    let stdout ← IO.getStdout
    stdout.putStr text
    stdout.flush
  | .err text => do
    let stderr ← IO.getStderr
    stderr.putStr text

/-- Writes what a program has to say, and gives its exit code. -/
def finish (t : Transcript) : IO UInt32 := do
  t.outputs.forM emit
  return t.code.toUInt32

/-- Reads lines until the program ends or the input does. -/
partial def interact (shell : Shell) : IO UInt32 := do
  emit (.out shell.prompt)
  let stdin ← IO.getStdin
  let line ← stdin.getLine
  if line.isEmpty then finish leaving
  else
    let clock ← presentClock
    match shell.step clock line.toList with
    | .stop transcript => finish transcript
    | .go shell outputs =>
      outputs.forM emit
      interact shell

/-- Reads a file, or says why it cannot be read. -/
def readConfig (file : String) : IO (Except String String) := do
  try
    let text ← IO.FS.readFile file
    return .ok text
  catch
    | .noFileOrDirectory .. => return .error "No such file or directory (os error 2)"
    | e => return .error (toString e)

/-- The files that options name, as they are now. -/
def configReader (o : Options) : IO FileReader := do
  match o.config with
  | .none => return fun _ => .error ""
  | .some file =>
    let content ← readConfig file
    return fun _ => content

/-- Runs what options ask for. -/
def start (o : Options) : IO UInt32 := do
  let read ← configReader o
  match o.load read with
  | .error cause => finish (settingsFailure o.config cause)
  | .ok settings =>
    let clock ← presentClock
    let shell := startShell o settings clock
    match o.statement with
    | some text =>
      let clock ← presentClock
      finish (runStatement clock shell.engine o.json text)
    | none =>
      emit (.out banner)
      interact shell

end PocketSql

/-- The program. -/
def main (args : List String) : IO UInt32 :=
  match PocketSql.Command.read? args with
  | none => PocketSql.finish PocketSql.usageFailure
  | some .version => PocketSql.finish ⟨[.out PocketSql.versionLine], 0⟩
  | some (.start o) => PocketSql.start o
