/-
  The tokens of a text, wherever it begins.

  * `gapRest`, `nextKind`, `kindsIn`: gaps, single tokens and all tokens, without places;
  * `toOption_skipGap`, `toOption_nextToken`, `toOption_lexFrom`: they are found at every place;
  * `gapRest_blank`, `gapRest_lineComment`, …: gaps, one character after the other;
  * `kindsIn_eq`: the tokens of a text are the first one and those of the text after it.
-/
import PocketSql.Proofs.Token.Endings

namespace PocketSql

/-! ## Gaps -/

/-- The text after a gap, wherever it begins. -/
def gapRest (gap : Gap) (cs : List Char) : Option (List Char) :=
  (skipGap gap .start cs).toOption.map Prod.snd

theorem toOption_skipGap (gap : Gap) (p : Position) (cs : List Char) :
    (skipGap gap p cs).toOption.map Prod.snd = gapRest gap cs := by
  have hplace : ∀ q, (skipGap gap p cs).toOption.map Prod.snd =
      (skipGap gap q cs).toOption.map Prod.snd := by
    intro q
    fun_induction skipGap gap p cs generalizing q with
    | case1 | case2 | case3 => simp [skipGap, Except.toOption]
    | case4 p rest ih | case5 p rest ih | case10 p rest ih => rw [skipGap]; exact ih _
    | case6 p c rest hminus hslash hblank ih =>
      rw [skipGap, if_pos hblank]
      · exact ih _
      · exact hminus
      · exact hslash
    | case7 p c rest hminus hslash hblank =>
      rw [skipGap, if_neg hblank]
      · rfl
      · exact hminus
      · exact hslash
    | case8 p rest ih => rw [skipGap, if_pos rfl]; exact ih _
    | case9 p c rest hnewline ih => rw [skipGap, if_neg hnewline]; exact ih _
    | case11 p c rest hclose ih =>
      rw [skipGap]
      · exact ih _
      · exact hclose
  exact hplace .start

section
variable {c : Char} {rest : List Char}

theorem gapRest_blank (h : isBlank c = true) :
    gapRest .blank (c :: rest) = gapRest .blank rest := by
  rw [gapRest, skipGap_blank h, toOption_skipGap]

theorem gapRest_token (hblank : isBlank c = false) (hminus : c = '-' → rest.head? ≠ some '-')
    (hslash : c = '/' → rest.head? ≠ some '*') :
    gapRest .blank (c :: rest) = some (c :: rest) := by
  rw [gapRest, skipGap_of_token hblank hminus hslash]
  rfl

theorem gapRest_dashes (rest : List Char) :
    gapRest .blank ('-' :: '-' :: rest) = gapRest .lineComment rest := by
  rw [gapRest, skipGap, toOption_skipGap]

theorem gapRest_lineComment (c : Char) (rest : List Char) :
    gapRest .lineComment (c :: rest) =
      if c = '\n' then gapRest .blank rest else gapRest .lineComment rest := by
  rw [gapRest, skipGap]
  split
  · exact toOption_skipGap _ _ _
  · exact toOption_skipGap _ _ _

theorem gapRest_opened (rest : List Char) :
    gapRest .blank ('/' :: '*' :: rest) = gapRest .blockComment rest := by
  rw [gapRest, skipGap, toOption_skipGap]

theorem gapRest_closed (rest : List Char) :
    gapRest .blockComment ('*' :: '/' :: rest) = gapRest .blank rest := by
  rw [gapRest, skipGap, toOption_skipGap]

theorem gapRest_blockComment (h : c = '*' → rest.head? ≠ some '/') :
    gapRest .blockComment (c :: rest) = gapRest .blockComment rest := by
  rw [gapRest, skipGap, toOption_skipGap]
  rintro rest' rfl rfl
  exact h rfl rfl

end

theorem isBlank_of_skipGap {gap : Gap} {p q : Position} {cs rest : List Char} {c : Char}
    (h : skipGap gap p cs = .ok (q, c :: rest)) : isBlank c = false := by
  fun_induction skipGap gap p cs with
  | case1 | case2 | case3 => cases h
  | case7 p d rest' _ _ hblank =>
    cases h
    exact Bool.eq_false_iff.2 hblank
  | case4 p rest ih | case5 p rest ih | case6 p d rest _ _ _ ih | case8 p rest ih
  | case9 p d rest _ ih | case10 p rest ih | case11 p d rest _ ih => exact ih h

/-- No blank stands after a gap. -/
theorem isBlank_of_gapRest {gap : Gap} {cs rest : List Char} {c : Char}
    (h : gapRest gap cs = some (c :: rest)) : isBlank c = false := by
  obtain ⟨⟨q, left⟩, hgap, rfl⟩ := Option.map_eq_some_iff.1 h
  exact isBlank_of_skipGap (toOption_eq_some.1 hgap)

/-! ## Single tokens -/

/-- The kind of a token at the start of a text and the text after it; nothing at the end. -/
def scanKind : List Char → Option (Option (TokenKind × List Char))
  | [] => some none
  | c :: rest => (scanToken .start c rest).toOption.map fun scan => some (scan.kind, scan.rest)

theorem toOption_scanToken (p : Position) (c : Char) (rest : List Char) :
    (scanToken p c rest).toOption.map (fun scan => some (scan.kind, scan.rest)) =
      scanKind (c :: rest) := by
  simp only [scanKind, scanToken]
  by_cases hquote : (c = '\x27' || c = '"') = true
  · rw [if_pos hquote, if_pos hquote]
    cases scanQuoted c rest <;> rfl
  · rw [if_neg hquote, if_neg hquote]

/-- The kind of the next token of a text and the text after it; nothing at the end. -/
def nextKind (cs : List Char) : Option (Option (TokenKind × List Char)) :=
  (gapRest .blank cs).bind scanKind

/-- What stands next, without places. -/
def Next.kind? : Next → Option (TokenKind × List Char)
  | stop _ => none
  | token t _ rest => some (t.kind, rest)

theorem toOption_nextToken (p : Position) (cs : List Char) :
    (nextToken p cs).toOption.map Next.kind? = nextKind cs := by
  rw [nextKind, ← toOption_skipGap .blank p, nextToken]
  cases skipGap .blank p cs with
  | error fault => rfl
  | ok found =>
    obtain ⟨place, left⟩ := found
    cases left with
    | nil => rfl
    | cons c rest =>
      rw [Except.toOption, Option.map_some, Option.bind_some, ← toOption_scanToken place]
      cases hscan : scanToken place c rest <;> simp [bind, Except.bind, hscan, Next.kind?, Except.toOption]

theorem length_lt_of_nextKind {cs rest : List Char} {kind : TokenKind}
    (h : nextKind cs = some (some (kind, rest))) : rest.length < cs.length := by
  rw [← toOption_nextToken .start, Option.map_eq_some_iff] at h
  obtain ⟨next, hnext, h⟩ := h
  cases next with
  | stop place => cases h
  | token t q rest =>
    cases h
    exact length_lt_of_nextToken (toOption_eq_some.1 hnext)

/-! ## All tokens -/

/-- The kinds of the tokens of a text. -/
def kindsIn (cs : List Char) : Option (List TokenKind) :=
  (lex cs).toOption.map fun l => kindsOf l.tokens

/-- What stands next in a text, and the kinds of the tokens after it. -/
def kindsAfter : Option (TokenKind × List Char) → Option (List TokenKind)
  | none => some []
  | some (kind, rest) => (kindsIn rest).map (kind :: ·)

theorem toOption_lexFrom_of_rest {p : Position} {cs : List Char}
    (h : ∀ t q rest, nextToken p cs = .ok (.token t q rest) →
      (lexFrom q rest).toOption.map (fun l => kindsOf l.tokens) = kindsIn rest) :
    (lexFrom p cs).toOption.map (fun l => kindsOf l.tokens) = (nextKind cs).bind kindsAfter := by
  rw [← toOption_nextToken p, lexFrom]
  split
  · next fault hnext =>
    rw [hnext]
    rfl
  · next place hnext =>
    rw [hnext]
    rfl
  · next t q rest hnext =>
    rw [hnext, Except.toOption, Option.map_some, Option.bind_some, Next.kind?, kindsAfter,
      ← h t q rest hnext]
    cases lexFrom q rest <;> rfl

theorem toOption_lexFrom (p : Position) (cs : List Char) :
    (lexFrom p cs).toOption.map (fun l => kindsOf l.tokens) = kindsIn cs := by
  induction hlength : cs.length using Nat.strongRecOn generalizing p cs with
  | _ n ih =>
    subst hlength
    have hrest {p : Position} : ∀ t q rest, nextToken p cs = .ok (.token t q rest) →
        (lexFrom q rest).toOption.map (fun l => kindsOf l.tokens) = kindsIn rest :=
      fun t q rest hnext => ih _ (length_lt_of_nextToken hnext) q rest rfl
    rw [toOption_lexFrom_of_rest hrest]
    exact (toOption_lexFrom_of_rest hrest).symm

/-- The tokens of a text are the first one and those of the text after it. -/
theorem kindsIn_eq (cs : List Char) : kindsIn cs = (nextKind cs).bind kindsAfter :=
  toOption_lexFrom_of_rest fun _ q rest _ => toOption_lexFrom q rest

end PocketSql
