/-
  Readers of token lists.

  A reader takes what it knows from the start of a list of tokens and gives the rest, or a `Fault`.
  A fault knows the token that was met, or that there was none; `Fault.cause` needs the place of
  the end of the text to say where.
-/
import PocketSql.Token.Lexer
import PocketSql.Value.Basic

namespace PocketSql

/-- Why a reader stopped. -/
inductive Fault
  /-- Something else was wanted than the token, or the end, that stands at a place.  Without a place
      it is the end of the text. -/
  | unexpected (wanted : Wanted) (found : Option TokenKind) (place : Option Position)
  /-- A cause of another kind. -/
  | refused (cause : SqlError)

/-- The cause of a fault in a text that ends at a place. -/
def Fault.cause (stop : Position) : Fault → SqlError
  | unexpected wanted found place =>
    .malformed (.unexpected wanted (found.map TokenKind.display) (place.getD stop))
  | refused cause => cause

/-- A fault in a part of a text: the end of the part is where the tokens after it begin. -/
def Fault.before (rest : List Token) : Fault → Fault
  | unexpected wanted found none => unexpected wanted found (rest.head?.map Token.place)
  | fault => fault

/-- A reader of tokens. -/
abbrev Reader (α : Type) := List Token → Except Fault (α × List Token)

/-- The fault of meeting these tokens where something else is wanted. -/
def unexpected (wanted : Wanted) (tokens : List Token) : Fault :=
  .unexpected wanted (tokens.head?.map Token.kind) (tokens.head?.map Token.place)

/-! ## Single tokens -/

/-- The tokens after one of a kind, if it stands there. -/
def accept? (kind : TokenKind) : List Token → Option (List Token)
  | t :: rest => if t.kind = kind then some rest else none
  | [] => none

/-- The tokens after one of a kind, which has to stand there. -/
def expect (kind : TokenKind) (tokens : List Token) : Except Fault (List Token) :=
  match accept? kind tokens with
  | some rest => .ok rest
  | none => .error (unexpected (.token kind.display) tokens)

/-- A name. -/
def readNameAs (wanted : Wanted) : Reader String
  | ⟨.name word, _⟩ :: rest => .ok (word, rest)
  | tokens => .error (unexpected wanted tokens)

/-- A name. -/
def readName : Reader String :=
  readNameAs .identifier

/-- The name of a table. -/
def readTableName : Reader String :=
  readNameAs .tableName

/-- A count: a number without a point or an exponent that fits in 64 bits. -/
def readCountToken (tokens : List Token) : Except Fault (Nat × List Token) :=
  match tokens with
  | ⟨.number digits, _⟩ :: rest =>
    match readCount digits.toList with
    | some n => .ok (n, rest)
    | none => .error (unexpected .count tokens)
  | _ => .error (unexpected .number tokens)

/-- A number with its sign, `tokens` beginning with its digits. -/
def readNumber (text : List Char) (tokens : List Token) : Except Fault (Value × List Token) :=
  match Value.ofNumberText? text with
  | some v => .ok (v, tokens.tail)
  | none => .error (unexpected (.finiteNumber (String.ofList text)) tokens)

/-- A literal: a text, a number with an optional minus, a truth value or NULL. -/
def readLiteral (tokens : List Token) : Except Fault (Value × List Token) :=
  match tokens with
  | [] => .error (unexpected .value tokens)
  | t :: rest =>
    match t.kind with
    | .text value => .ok (.text value, rest)
    | .number digits => readNumber digits.toList tokens
    | .sign .minus =>
      match rest with
      | ⟨.number digits, _⟩ :: _ => readNumber ('-' :: digits.toList) rest
      | _ => .error (unexpected .numberAfterMinus rest)
    | .keyword .true_ => .ok (.boolean true, rest)
    | .keyword .false_ => .ok (.boolean false, rest)
    | .keyword .null => .ok (.null, rest)
    | _ => .error (unexpected .value tokens)

/-- A column, with or without its table; the table is dropped. -/
def readColumnName (tokens : List Token) : Except Fault (String × List Token) := do
  let (name, rest) ← readName tokens
  match accept? (.sign .dot) rest with
  | some rest => readName rest
  | none => .ok (name, rest)

/-! ## Lists -/

/-- Items separated by commas, at least one and at most `more + 1`. -/
def readItems (item : Reader α) : Nat → Reader (List α)
  | 0, tokens => do
    let (x, rest) ← item tokens
    .ok ([x], rest)
  | more + 1, tokens => do
    let (x, rest) ← item tokens
    match accept? (.sign .comma) rest with
    | some rest => do
      let (xs, rest) ← readItems item more rest
      .ok (x :: xs, rest)
    | none => .ok ([x], rest)

/-- Items separated by commas, at least one.  Every comma is a token, so there are no more items
    than tokens. -/
def readList (item : Reader α) : Reader (List α) := fun tokens =>
  readItems item tokens.length tokens

/-- A list in parentheses. -/
def readParenthesized (item : Reader α) : Reader (List α) := fun tokens => do
  let rest ← expect (.sign .leftParen) tokens
  let (xs, rest) ← readList item rest
  let rest ← expect (.sign .rightParen) rest
  .ok (xs, rest)

/-! ## Parts of a list -/

/-- How many parentheses are open after a token; one closed too many does not count. -/
def depthAfter (depth : Nat) (kind : TokenKind) : Nat :=
  if kind = .sign .leftParen then depth + 1
  else if kind = .sign .rightParen then depth - 1
  else depth

/-- The tokens before the first one outside of parentheses at which a part stops, and the others. -/
def splitOutside (stops : TokenKind → Bool) (depth : Nat) : List Token → List Token × List Token
  | [] => ([], [])
  | t :: rest =>
    if depth = 0 && stops t.kind then ([], t :: rest)
    else
      let (inside, after) := splitOutside stops (depthAfter depth t.kind) rest
      (t :: inside, after)

end PocketSql
