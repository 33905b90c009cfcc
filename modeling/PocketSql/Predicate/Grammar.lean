/-
  The grammar of conditions, as a relation.

  `Derives level kinds p tests nesting`: the tokens `kinds` spell the condition `p` at a level of
  the grammar, with `tests` tests, the deepest of them inside of `nesting` negations and
  parentheses.  Connectives join to the left, so that the left operand is of the level of the
  connective and the right one of the level below.
-/
import PocketSql.Predicate.Reader

namespace PocketSql

/-- The levels of the grammar, from the loosest to the tightest. -/
inductive GrammarLevel
  | alternatives
  | conjunction
  | operand
deriving DecidableEq, Repr

/-- The tokens of a column; the table before the point is dropped. -/
inductive SpellsColumn (column : String) : List TokenKind → Prop
  | plain : SpellsColumn column [.name column]
  | qualified {table} : SpellsColumn column [.name table, .sign .dot, .name column]

/-- The tokens of a literal. -/
inductive SpellsLiteral : List TokenKind → Value → Prop
  | text {s} : SpellsLiteral [.text s] (.text s)
  | number {digits v} : Value.ofNumberText? digits.toList = some v →
      SpellsLiteral [.number digits] v
  | negative {digits v} : Value.ofNumberText? ('-' :: digits.toList) = some v →
      SpellsLiteral [.sign .minus, .number digits] v
  | true : SpellsLiteral [.keyword .true_] (.boolean Bool.true)
  | false : SpellsLiteral [.keyword .false_] (.boolean Bool.false)
  | null : SpellsLiteral [.keyword .null] .null

/-- The tokens of a condition, with the number of its tests and the most negations and parentheses
    around one of them. -/
inductive Derives : GrammarLevel → List TokenKind → Predicate → Nat → Nat → Prop
  | conjunction {ks p n d} : Derives .conjunction ks p n d → Derives .alternatives ks p n d
  | or {ks₁ ks₂ p₁ p₂ n₁ n₂ d₁ d₂} : Derives .alternatives ks₁ p₁ n₁ d₁ →
      Derives .conjunction ks₂ p₂ n₂ d₂ →
      Derives .alternatives (ks₁ ++ .keyword .or :: ks₂) (.or p₁ p₂) (n₁ + n₂) (max d₁ d₂)
  | operand {ks p n d} : Derives .operand ks p n d → Derives .conjunction ks p n d
  | and {ks₁ ks₂ p₁ p₂ n₁ n₂ d₁ d₂} : Derives .conjunction ks₁ p₁ n₁ d₁ →
      Derives .operand ks₂ p₂ n₂ d₂ →
      Derives .conjunction (ks₁ ++ .keyword .and :: ks₂) (.and p₁ p₂) (n₁ + n₂) (max d₁ d₂)
  | not {ks p n d} : Derives .operand ks p n d →
      Derives .operand (.keyword .not :: ks) (.not p) n (d + 1)
  | parentheses {ks p n d} : Derives .alternatives ks p n d →
      Derives .operand (.sign .leftParen :: (ks ++ [.sign .rightParen])) p n (d + 1)
  | isNull {ks column} : SpellsColumn column ks →
      Derives .operand (ks ++ [.keyword .is, .keyword .null]) (.isNull column false) 1 0
  | isNotNull {ks column} : SpellsColumn column ks →
      Derives .operand (ks ++ [.keyword .is, .keyword .not, .keyword .null])
        (.isNull column true) 1 0
  | compare {ks ls column s op v} : SpellsColumn column ks → CompareOp.ofSign? s = some op →
      SpellsLiteral ls v →
      Derives .operand (ks ++ .sign s :: ls) (.compare column op v) 1 0

/-- The tokens of a clause that is understood: a condition within the limits. -/
def SpellsClause (kinds : List TokenKind) (p : Predicate) : Prop :=
  ∃ tests nesting, Derives .alternatives kinds p tests nesting ∧
    tests ≤ maxTests ∧ nesting ≤ maxNesting

/-- A condition holds a test. -/
theorem Derives.tests_pos {level : GrammarLevel} {ks : List TokenKind} {p : Predicate}
    {n d : Nat} (h : Derives level ks p n d) : 0 < n := by
  induction h with
  | isNull | isNotNull | compare => exact Nat.one_pos
  | conjunction _ ih | operand _ ih | not _ ih | parentheses _ ih => exact ih
  | or _ _ ih _ | and _ _ ih _ => exact Nat.add_pos_left ih _

/-- A condition of the grammar has no part that is not understood. -/
theorem Derives.unsupported?_eq_none {level : GrammarLevel} {ks : List TokenKind}
    {p : Predicate} {n d : Nat} (h : Derives level ks p n d) : p.unsupported? = none := by
  induction h with
  | isNull | isNotNull | compare => rfl
  | conjunction _ ih | operand _ ih | parentheses _ ih => exact ih
  | not _ ih => exact ih
  | or _ _ ih₁ ih₂ | and _ _ ih₁ ih₂ => simp [Predicate.unsupported?, ih₁, ih₂]

end PocketSql
