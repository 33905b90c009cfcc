/-
  Characters of a text, and places in it.

  * `CodeRanges` lists closed ranges of code points in increasing order; `CodeRanges.holds` looks a
    character up and stops at the first range that begins after it;
  * `isBlank` is membership in the characters with the Unicode property White_Space.  `trim` drops
    the blanks at both ends of a text, `trimLeft` those at its start, and `words` are the pieces
    between blanks;
  * names are matched with the fixed words of the language in two ways.  `sameIgnoringCase` and
    `upperText` touch the letters `A` to `Z` alone: type names, the words of a table clause, truth
    values.  `foldKeyword` also sends the Kelvin sign to `k`, the one letter outside of `A` to `Z`
    whose lower case is one of `a` to `z`: the reserved words;
  * a `Position` is a line and a column, both counted from 1.  A line ends with its newline.
    `Position.after p cs` is where the text stands that follows `cs`, if `cs` stands at `p`.
-/
namespace PocketSql

/-! ## Sets of characters -/

/-- Closed ranges of code points, in increasing order. -/
abbrev CodeRanges := List (Nat × Nat)

/-- Membership of a code point, decided at the first range that does not end before it. -/
def CodeRanges.holdsCode (code : Nat) : CodeRanges → Bool
  | [] => false
  | (low, high) :: rest => if high < code then holdsCode code rest else decide (low ≤ code)

/-- Membership of a character. -/
def CodeRanges.holds (ranges : CodeRanges) (c : Char) : Bool :=
  ranges.holdsCode c.toNat

/-- A code point that is found lies in one of the ranges. -/
theorem CodeRanges.exists_of_holdsCode {code : Nat} {ranges : CodeRanges}
    (h : ranges.holdsCode code = true) : ∃ r ∈ ranges, r.1 ≤ code ∧ code ≤ r.2 := by
  induction ranges with
  | nil => simp [holdsCode] at h
  | cons r rest ih =>
    obtain ⟨low, high⟩ := r
    unfold holdsCode at h
    split at h
    · obtain ⟨r, hr, hc⟩ := ih h
      exact ⟨r, List.mem_cons_of_mem _ hr, hc⟩
    · exact ⟨(low, high), List.mem_cons_self, of_decide_eq_true h, by omega⟩

/-! ## Blanks -/

/-- The blank characters. -/
def blankRanges : CodeRanges :=
  [(0x0009, 0x000D), (0x0020, 0x0020), (0x0085, 0x0085), (0x00A0, 0x00A0), (0x1680, 0x1680),
   (0x2000, 0x200A), (0x2028, 0x2029), (0x202F, 0x202F), (0x205F, 0x205F), (0x3000, 0x3000)]

/-- A blank character. -/
def isBlank (c : Char) : Bool :=
  blankRanges.holds c

/-- A text without the blanks at its start. -/
def trimLeft (cs : List Char) : List Char :=
  cs.dropWhile isBlank

/-- A text without the blanks at its end. -/
def trimRight (cs : List Char) : List Char :=
  (cs.reverse.dropWhile isBlank).reverse

/-- A text without the blanks at its two ends. -/
def trim (cs : List Char) : List Char :=
  trimRight (trimLeft cs)

/-- The pieces of a text between blanks, with `word` the one being read. -/
def wordsFrom (word : List Char) : List Char → List (List Char)
  | [] => if word.isEmpty then [] else [word]
  | c :: rest =>
    if isBlank c then
      if word.isEmpty then wordsFrom [] rest else word :: wordsFrom [] rest
    else wordsFrom (word ++ [c]) rest

/-- The pieces of a text between blanks; none is empty. -/
def words (cs : List Char) : List (List Char) :=
  wordsFrom [] cs

/-! ## Letter case -/

/-- A text with `A` to `Z` made small. -/
def lowerText (cs : List Char) : List Char :=
  cs.map Char.toLower

/-- A text with `a` to `z` made capital. -/
def upperText (cs : List Char) : List Char :=
  cs.map Char.toUpper

/-- Two texts agree up to the case of `A` to `Z`. -/
def sameIgnoringCase (s t : List Char) : Bool :=
  lowerText s == lowerText t

/-- The Kelvin sign, whose lower case is the letter `k`. -/
def kelvinSign : Char := '\u212A'

/-- The letter in which a reserved word is looked up. -/
def foldLetter (c : Char) : Char :=
  if c = kelvinSign then 'k' else c.toLower

/-- The spelling under which a reserved word is looked up. -/
def foldKeyword (cs : List Char) : List Char :=
  cs.map foldLetter

/-! ## Places -/

/-- A line and a column of a text. -/
structure Position where
  line : Nat
  column : Nat
deriving DecidableEq, Repr

namespace Position

/-- Where a text begins. -/
def start : Position := ⟨1, 1⟩

/-- The place after a character. -/
def next (p : Position) (c : Char) : Position :=
  if c = '\n' then ⟨p.line + 1, 1⟩ else ⟨p.line, p.column + 1⟩

/-- The place after some characters. -/
def after (p : Position) (cs : List Char) : Position :=
  cs.foldl next p

theorem after_append (p : Position) (cs ds : List Char) :
    p.after (cs ++ ds) = (p.after cs).after ds := by
  simp [after]

end Position

end PocketSql
