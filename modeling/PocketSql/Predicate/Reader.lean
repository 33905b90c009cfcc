/-
  WHERE clauses.

  A clause ends before the first ORDER, LIMIT, OFFSET or `;` outside of parentheses.  Its grammar is

      or    := and (OR and)*
      and   := not (AND not)*
      not   := NOT not | '(' or ')' | test
      test  := column IS [NOT] NULL | column sign literal

  with at most `maxTests` tests in all, none of them inside of more than `maxNesting` negations and
  parentheses together.  A clause of another form is kept as text.
-/
import PocketSql.Predicate.Basic
import PocketSql.Token.Reader

namespace PocketSql

/-- The most negations and parentheses around a test. -/
def maxNesting : Nat := 64

/-- The most tests in a clause. -/
def maxTests : Nat := 256

/-- A condition read from the start of a list of tokens: how many tests may still follow, and the
    tokens after it. -/
structure Condition where
  predicate : Predicate
  tests : Nat
  rest : List Token

/-- A reader of conditions, given how many tests may be read. -/
abbrev ConditionReader := Nat → List Token → Option Condition

/-- The comparison that a sign stands for. -/
def CompareOp.ofSign? : Sign → Option CompareOp
  | .eq => some eq
  | .ne => some ne
  | .lt => some lt
  | .le => some le
  | .gt => some gt
  | .ge => some ge
  | _ => none

/-- A comparison of a column with a literal, from its sign on. -/
def readComparison (column : String) (tests : Nat) : List Token → Option Condition
  | ⟨.sign s, _⟩ :: rest => do
    let op ← CompareOp.ofSign? s
    let (value, rest) ← (readLiteral rest).toOption
    some ⟨.compare column op value, tests, rest⟩
  | _ => none

/-- A test whether a column is NULL, from after the word IS. -/
def readNullTest (column : String) (tests : Nat) (tokens : List Token) : Option Condition :=
  match accept? (.keyword .not) tokens with
  | some rest => (accept? (.keyword .null) rest).map fun rest => ⟨.isNull column true, tests, rest⟩
  | none => (accept? (.keyword .null) tokens).map fun rest => ⟨.isNull column false, tests, rest⟩

/-- A single test; it uses up one of the tests that may be read. -/
def readTest : ConditionReader
  | 0, _ => none
  | tests + 1, tokens => do
    let (column, rest) ← (readColumnName tokens).toOption
    match accept? (.keyword .is) rest with
    | some rest => readNullTest column tests rest
    | none => readComparison column tests rest

/-- Further operands of a connective, joined to what stands to their left.  Every operand holds a
    test, so that there are at most as many as tests may be read. -/
def readOperands (connective : Keyword) (join : Predicate → Predicate → Predicate)
    (operand : ConditionReader) : Nat → Condition → Option Condition
  | 0, left => if (accept? (.keyword connective) left.rest).isSome then none else some left
  | more + 1, left =>
    match accept? (.keyword connective) left.rest with
    | none => some left
    | some rest => do
      let right ← operand left.tests rest
      readOperands connective join operand more
        ⟨join left.predicate right.predicate, right.tests, right.rest⟩

/-- Operands joined by a connective, from the left. -/
def readChain (connective : Keyword) (join : Predicate → Predicate → Predicate)
    (operand : ConditionReader) : ConditionReader := fun tests tokens => do
  let first ← operand tests tokens
  readOperands connective join operand first.tests first

/-- Alternatives of conjunctions, over a reader for what stands between the connectives. -/
def readAlternatives (operand : ConditionReader) : ConditionReader :=
  readChain .or .or (readChain .and .and operand)

/-- A negation, a condition in parentheses or a test, inside of at most `room` further negations and
    parentheses. -/
def readOperand : Nat → ConditionReader
  | 0, tests, tokens =>
    if (accept? (.keyword .not) tokens).isSome || (accept? (.sign .leftParen) tokens).isSome then
      none
    else readTest tests tokens
  | room + 1, tests, tokens =>
    match accept? (.keyword .not) tokens with
    | some rest => do
      let inner ← readOperand room tests rest
      some { inner with predicate := .not inner.predicate }
    | none =>
      match accept? (.sign .leftParen) tokens with
      | some rest => do
        let inner ← readAlternatives (readOperand room) tests rest
        let rest ← accept? (.sign .rightParen) inner.rest
        some { inner with rest := rest }
      | none => readTest tests tokens

/-- A whole condition. -/
def readCondition : ConditionReader :=
  readAlternatives (readOperand maxNesting)

/-- The tokens at which a clause ends. -/
def endsClause (kind : TokenKind) : Bool :=
  kind == .keyword .order || kind == .keyword .limit || kind == .keyword .offset ||
    kind == .sign .semicolon

/-- The condition that the tokens of a clause spell, if they do. -/
def readClause? (clause : List Token) : Option Predicate :=
  match readCondition maxTests clause with
  | some ⟨predicate, _, []⟩ => some predicate
  | _ => none

/-- The condition of the tokens of a clause; a clause that is not understood is kept as text. -/
def clausePredicate (clause : List Token) : Predicate :=
  (readClause? clause).getD
    (.unsupported (String.ofList (renderTokens (clause.map Token.kind))))

/-- An optional WHERE clause. -/
def readWhere (tokens : List Token) : Option Predicate × List Token :=
  match accept? (.keyword .where_) tokens with
  | none => (none, tokens)
  | some rest =>
    let (clause, rest) := splitOutside endsClause 0 rest
    (some (clausePredicate clause), rest)

end PocketSql
