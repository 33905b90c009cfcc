/-
  The settings of an engine, and their JSON documents.

  `Settings.ofJsonText` takes an object with any of the four settings as fields, each at most once,
  or a list of them in order.  What is not given keeps its standard value, and unknown fields are
  passed over.  `Settings.toJson` writes all four.
-/
import PocketSql.Error
import PocketSql.Json.Basic
import PocketSql.Json.Reader

namespace PocketSql

/-! ## Settings -/

/-- What becomes of a WHERE clause that is not understood. -/
inductive PredicatePolicy
  /-- It holds of every row. -/
  | matchAll
  /-- The statement is refused. -/
  | reject
deriving DecidableEq, Repr

/-- What becomes of UPDATE and DELETE. -/
inductive MutationMode
  /-- They are acknowledged and change nothing. -/
  | simulated
  /-- They change the rows. -/
  | apply
deriving DecidableEq, Repr

/-- The settings of an engine. -/
structure Settings where
  predicatePolicy : PredicatePolicy
  mutationMode : MutationMode
  /-- A new store holds the sample tables. -/
  seedSample : Bool
  /-- How many rows of a table an overview shows. -/
  sampleRows : Nat
deriving DecidableEq, Repr

/-- The settings where nothing else is said. -/
def Settings.standard : Settings :=
  ⟨.matchAll, .simulated, true, 3⟩

/-! ## Single settings as documents -/

/-- A policy as it is written. -/
def PredicatePolicy.name : PredicatePolicy → String
  | matchAll => "match_all"
  | reject => "reject"

/-- A mode as it is written. -/
def MutationMode.name : MutationMode → String
  | simulated => "simulated"
  | apply => "apply"

/-- A word: a text, or an object with the word as its only field, which holds null. -/
def JsonTerm.word? : JsonTerm → Option String
  | text value => value
  | object [(name, null)] => name
  | _ => none

/-- A policy. -/
def PredicatePolicy.ofTerm? (t : JsonTerm) : Option PredicatePolicy := do
  let word ← t.word?
  [matchAll, reject].find? (·.name == word)

/-- A mode. -/
def MutationMode.ofTerm? (t : JsonTerm) : Option MutationMode := do
  let word ← t.word?
  [simulated, apply].find? (·.name == word)

/-- A truth value. -/
def JsonTerm.bool? : JsonTerm → Option Bool
  | bool b => some b
  | _ => none

/-- A count: digits alone whose number fits in 64 bits. -/
def JsonTerm.count? : JsonTerm → Option Nat
  | number digits => readCount digits
  | _ => none

/-! ## All settings as documents -/

/-- What a reader makes of a field, or a standard value if the field is not given. -/
def givenOr (standard : α) (read : JsonTerm → Option α) : Option JsonTerm → Option α
  | none => some standard
  | some t => read t

namespace Settings

/-- Settings, of which some are given. -/
def ofGiven? (policy mode seed rows : Option JsonTerm) : Option Settings := do
  let policy ← givenOr standard.predicatePolicy PredicatePolicy.ofTerm? policy
  let mode ← givenOr standard.mutationMode MutationMode.ofTerm? mode
  let seed ← givenOr standard.seedSample JsonTerm.bool? seed
  let rows ← givenOr standard.sampleRows JsonTerm.count? rows
  some ⟨policy, mode, seed, rows⟩

/-- The value of a field that may come once. -/
def field? (fields : List (Option String × JsonTerm)) (name : String) :
    Option (Option JsonTerm) :=
  match fields.filter (·.1 == some name) with
  | [] => some none
  | [(_, t)] => some (some t)
  | _ => none

/-- Settings from the fields of an object. -/
def ofFields? (fields : List (Option String × JsonTerm)) : Option Settings := do
  if fields.any (·.1.isNone) then none
  else
    let policy ← field? fields "predicate_policy"
    let mode ← field? fields "mutation_mode"
    let seed ← field? fields "seed_sample_data"
    let rows ← field? fields "sample_rows"
    ofGiven? policy mode seed rows

/-- Settings from a document. -/
def ofTerm? : JsonTerm → Option Settings
  | .object fields => ofFields? fields
  | .list items =>
    if items.length ≤ 4 then ofGiven? items[0]? items[1]? items[2]? items[3]? else none
  | _ => none

/-- Settings from a JSON text. -/
def ofJsonText (text : String) : Except SqlError Settings :=
  match (readJson? text.toList).bind ofTerm? with
  | some s => .ok s
  | none => .error (.badSettings "invalid settings")

/-- Settings as a document. -/
def toJson (s : Settings) : Json :=
  .object [("predicate_policy", .text s.predicatePolicy.name),
    ("mutation_mode", .text s.mutationMode.name),
    ("seed_sample_data", .bool s.seedSample),
    ("sample_rows", .integer s.sampleRows)]

end Settings

end PocketSql
