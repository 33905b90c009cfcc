/-
  The options of the command line.
-/
import PocketSql.Settings

namespace PocketSql

/-- What the command line asks for. -/
structure Options where
  /-- Start without the sample tables. -/
  empty : Bool
  /-- Really change rows with UPDATE and DELETE. -/
  applyMutations : Bool
  /-- Refuse WHERE clauses that are not understood. -/
  strictPredicates : Bool
  /-- Write results as JSON. -/
  json : Bool
  /-- A statement to run instead of reading some. -/
  statement : Option String
  /-- A file with settings. -/
  config : Option String
deriving DecidableEq, Repr

/-- A command line. -/
inductive Command
  | version
  | start (options : Options)
deriving DecidableEq, Repr

namespace Options

/-- Nothing is asked for. -/
def none : Options := ⟨false, false, false, false, .none, .none⟩

/-- A switch turned on that is off. -/
def switchOn (name : String) (o : Options) : Option Options :=
  match name, o with
  | "--empty", { empty := false, .. } => some { o with empty := true }
  | "--apply-mutations", { applyMutations := false, .. } => some { o with applyMutations := true }
  | "--strict-predicates", { strictPredicates := false, .. } =>
    some { o with strictPredicates := true }
  | "--json", { json := false, .. } => some { o with json := true }
  | _, _ => .none

/-- An option with a value that has none. -/
def give (name value : String) (o : Options) : Option Options :=
  match name, o with
  | "--execute", { statement := .none, .. } => some { o with statement := some value }
  | "--config", { config := .none, .. } => some { o with config := some value }
  | _, _ => .none

/-- An option that a value follows, in its long form. -/
def takesValue? : String → Option String
  | "-e" | "--execute" => some "--execute"
  | "--config" => some "--config"
  | _ => .none

/-- A word that is no value of an option. -/
def isOption (word : String) : Bool :=
  word.startsWith "-" && word != "-"

end Options

/-- The command of some words that follow others which asked for `o`; nothing if a word is unknown,
    comes twice or lacks its value. -/
def Command.readFrom (o : Options) : List String → Option Command
  | [] => some (.start o)
  | "--version" :: _ => some .version
  | "-V" :: _ => some .version
  | [word] => (o.switchOn word).map .start
  | word :: value :: rest =>
    match Options.takesValue? word with
    | some name =>
      if Options.isOption value then none
      else match o.give name value with
        | some o => readFrom o rest
        | none => none
    | none =>
      match o.switchOn word with
      | some o => readFrom o (value :: rest)
      | none => none

/-- The command of a command line. -/
def Command.read? (words : List String) : Option Command :=
  Command.readFrom .none words

/-- Settings under the options of a command line. -/
def Options.settings (o : Options) (base : Settings) : Settings :=
  { base with
    seedSample := base.seedSample && !o.empty
    mutationMode := if o.applyMutations then .apply else base.mutationMode
    predicatePolicy := if o.strictPredicates then .reject else base.predicatePolicy }

end PocketSql
