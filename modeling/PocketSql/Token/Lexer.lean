/-
  From text to tokens.

  * `skipGap` passes over blanks and comments, `-- …` up to the end of the line and `/* … */`;
  * `scanToken` takes one token from the start of a text and tells which characters it covers: the
    longest number or name, a quoted text in which a doubled quote stands for one, the longest
    sign, or a single character without a meaning;
  * `lex` is the list of all tokens with their places, and the place of the end.

  `skipGap_spec` and `scanToken_spec` say that no character is lost: what is passed over or covered,
  followed by what is left, is the text.
-/
import PocketSql.Error
import PocketSql.Text.Basic
import PocketSql.Text.Name
import PocketSql.Token.Basic

namespace PocketSql

/-! ## Gaps between tokens -/

/-- The parts of a gap between tokens. -/
inductive Gap
  | blank
  | lineComment
  | blockComment
deriving DecidableEq, Repr

/-- The text after a gap, and its place. -/
def skipGap : Gap → Position → List Char → Except Malformed (Position × List Char)
  | .blockComment, _, [] => .error .openComment
  | .blank, p, [] => .ok (p, [])
  | .lineComment, p, [] => .ok (p, [])
  | .blank, p, '-' :: '-' :: rest => skipGap .lineComment (p.after ['-', '-']) rest
  | .blank, p, '/' :: '*' :: rest => skipGap .blockComment (p.after ['/', '*']) rest
  | .blank, p, c :: rest =>
    if isBlank c then skipGap .blank (p.next c) rest else .ok (p, c :: rest)
  | .lineComment, p, c :: rest =>
    if c = '\n' then skipGap .blank (p.next c) rest else skipGap .lineComment (p.next c) rest
  | .blockComment, p, '*' :: '/' :: rest => skipGap .blank (p.after ['*', '/']) rest
  | .blockComment, p, c :: rest => skipGap .blockComment (p.next c) rest

/-- What is passed over after some characters is passed over together with them. -/
theorem exists_passed_append {p q : Position} {cs rest : List Char} (w : List Char)
    (h : ∃ passed, cs = passed ++ rest ∧ q = (p.after w).after passed) :
    ∃ passed, w ++ cs = passed ++ rest ∧ q = p.after passed := by
  obtain ⟨passed, rfl, rfl⟩ := h
  exact ⟨w ++ passed, by simp, by rw [Position.after_append]⟩

theorem skipGap_spec {gap : Gap} {p q : Position} {cs rest : List Char}
    (h : skipGap gap p cs = .ok (q, rest)) :
    ∃ passed, cs = passed ++ rest ∧ q = p.after passed := by
  fun_induction skipGap gap p cs with
  | case1 => simp at h
  | case2 | case3 | case7 =>
    simp only [Except.ok.injEq, Prod.mk.injEq] at h
    exact ⟨[], by simp [← h.2], by simp [← h.1, Position.after]⟩
  | case4 =>
    rename_i ih
    exact exists_passed_append ['-', '-'] (ih h)
  | case5 =>
    rename_i ih
    exact exists_passed_append ['/', '*'] (ih h)
  | case10 =>
    rename_i ih
    exact exists_passed_append ['*', '/'] (ih h)
  | case6 | case8 | case9 | case11 =>
    rename_i ih
    exact exists_passed_append [_] (ih h)

/-! ## Single tokens -/

/-- A token at the start of a text: what it is, the characters it covers, and what follows. -/
structure Scan where
  kind : TokenKind
  covered : List Char
  rest : List Char
deriving Repr

/-- A point with the digits after it, if a point is there. -/
def spanFraction : List Char → List Char × List Char
  | '.' :: rest => ('.' :: rest.takeWhile Char.isDigit, rest.dropWhile Char.isDigit)
  | cs => ([], cs)

/-- A plus or a minus, if one is there. -/
def spanSign : List Char → List Char × List Char
  | '+' :: rest => (['+'], rest)
  | '-' :: rest => (['-'], rest)
  | cs => ([], cs)

/-- An exponent, if one is there; it takes at least one digit. -/
def spanExponent : List Char → List Char × List Char
  | [] => ([], [])
  | c :: rest =>
    let (sign, afterSign) := spanSign rest
    let digits := afterSign.takeWhile Char.isDigit
    if (c = 'e' || c = 'E') && !digits.isEmpty then
      (c :: sign ++ digits, afterSign.dropWhile Char.isDigit)
    else ([], c :: rest)

/-- Digits, a point with digits, and an exponent, each if it is there. -/
def spanNumber (cs : List Char) : List Char × List Char :=
  let (fraction, afterFraction) := spanFraction (cs.dropWhile Char.isDigit)
  let (exponent, rest) := spanExponent afterFraction
  (cs.takeWhile Char.isDigit ++ fraction ++ exponent, rest)

/-- The text up to the closing quote, the characters it covers with that quote, and what follows;
    nothing if the text is not closed. -/
def scanQuoted (quote : Char) : List Char → Option (List Char × List Char × List Char)
  | [] => none
  | [c] => if c = quote then some ([], [c], []) else none
  | c :: d :: rest =>
    if c = quote then
      if d = quote then
        (scanQuoted quote rest).map fun (value, covered, rest) =>
          (c :: value, c :: d :: covered, rest)
      else some ([], [c], d :: rest)
    else
      (scanQuoted quote (d :: rest)).map fun (value, covered, rest) =>
        (c :: value, c :: covered, rest)

/-- What a name means: a reserved word or itself. -/
def wordKind (word : List Char) : TokenKind :=
  match Keyword.ofWord? word with
  | some k => .keyword k
  | none => .name (String.ofList word)

/-- The longest sign at the start of a text, or its first character without a meaning. -/
def scanSign (c : Char) (rest : List Char) : Scan :=
  match c, rest with
  | '!', '=' :: rest => ⟨.sign .ne, ['!', '='], rest⟩
  | '<', '=' :: rest => ⟨.sign .le, ['<', '='], rest⟩
  | '<', '>' :: rest => ⟨.sign .ne, ['<', '>'], rest⟩
  | '>', '=' :: rest => ⟨.sign .ge, ['>', '='], rest⟩
  | '=', rest => ⟨.sign .eq, ['='], rest⟩
  | '<', rest => ⟨.sign .lt, ['<'], rest⟩
  | '>', rest => ⟨.sign .gt, ['>'], rest⟩
  | '-', rest => ⟨.sign .minus, ['-'], rest⟩
  | '*', rest => ⟨.sign .star, ['*'], rest⟩
  | '(', rest => ⟨.sign .leftParen, ['('], rest⟩
  | ')', rest => ⟨.sign .rightParen, [')'], rest⟩
  | ',', rest => ⟨.sign .comma, [','], rest⟩
  | ';', rest => ⟨.sign .semicolon, [';'], rest⟩
  | '.', rest => ⟨.sign .dot, ['.'], rest⟩
  | c, rest => ⟨.unknown c, [c], rest⟩

/-- A number starts here: with a digit, or with a point before one. -/
def startsNumber (c : Char) (rest : List Char) : Bool :=
  c.isDigit || (c = '.' && (rest.head?.map Char.isDigit).getD false)

/-- The token at the start of a text whose first character is not blank, `place` being the place of
    that character. -/
def scanToken (place : Position) (c : Char) (rest : List Char) : Except Malformed Scan :=
  if c = '\x27' || c = '"' then
    match scanQuoted c rest with
    | some (value, covered, rest) => .ok ⟨.text (String.ofList value), c :: covered, rest⟩
    | none => .error (.openText place)
  else if startsNumber c rest then
    let (number, rest) := spanNumber (c :: rest)
    .ok ⟨.number (String.ofList number), number, rest⟩
  else if startsName c then
    let word := c :: rest.takeWhile continuesName
    .ok ⟨wordKind word, word, rest.dropWhile continuesName⟩
  else .ok (scanSign c rest)

/-! ### Nothing is lost -/

theorem spanFraction_append (cs : List Char) :
    (spanFraction cs).1 ++ (spanFraction cs).2 = cs := by
  unfold spanFraction
  split <;> simp [List.takeWhile_append_dropWhile]

theorem spanSign_append (cs : List Char) : (spanSign cs).1 ++ (spanSign cs).2 = cs := by
  unfold spanSign
  split <;> simp

theorem spanExponent_append (cs : List Char) :
    (spanExponent cs).1 ++ (spanExponent cs).2 = cs := by
  unfold spanExponent
  split
  · rfl
  · next c rest =>
    dsimp only
    split
    · simpa [List.takeWhile_append_dropWhile] using spanSign_append rest
    · rfl

theorem spanNumber_append (cs : List Char) : (spanNumber cs).1 ++ (spanNumber cs).2 = cs := by
  simp only [spanNumber, List.append_assoc, spanExponent_append, spanFraction_append,
    List.takeWhile_append_dropWhile]

theorem spanNumber_ne_nil {c : Char} {rest : List Char} (h : startsNumber c rest = true) :
    (spanNumber (c :: rest)).1 ≠ [] := by
  unfold startsNumber at h
  by_cases hd : c.isDigit
  · simp [spanNumber, hd]
  · simp only [hd, Bool.false_or, Bool.and_eq_true, decide_eq_true_eq] at h
    simp [spanNumber, h.1, spanFraction]

theorem scanQuoted_append {quote : Char} {cs value covered rest : List Char}
    (h : scanQuoted quote cs = some (value, covered, rest)) : covered ++ rest = cs := by
  fun_induction scanQuoted quote cs generalizing value covered rest with
  | case1 => simp at h
  | case2 => simp at h; simp [← h.2]
  | case3 => simp at h
  | case4 | case6 =>
    rename_i ih
    simp only [Option.map_eq_some_iff, Prod.mk.injEq, Prod.exists] at h
    obtain ⟨v, w, r', hq, rfl, rfl, rfl⟩ := h
    simp [ih hq]
  | case5 => simp at h; simp [← h.2]

theorem scanSign_spec (c : Char) (rest : List Char) :
    (scanSign c rest).covered ++ (scanSign c rest).rest = c :: rest ∧
      (scanSign c rest).covered ≠ [] := by
  unfold scanSign
  split <;> simp

theorem scanToken_spec {place : Position} {c : Char} {rest : List Char} {s : Scan}
    (h : scanToken place c rest = .ok s) : s.covered ++ s.rest = c :: rest ∧ s.covered ≠ [] := by
  unfold scanToken at h
  split at h
  · split at h
    · next hq =>
      simp only [Except.ok.injEq] at h
      simp [← h, scanQuoted_append hq]
    · simp at h
  · split at h
    · next hn =>
      simp only [Except.ok.injEq] at h
      exact ⟨by simp [← h, spanNumber_append], by simpa [← h] using spanNumber_ne_nil hn⟩
    · split at h
      · simp only [Except.ok.injEq] at h
        simp [← h, List.takeWhile_append_dropWhile]
      · simp only [Except.ok.injEq] at h
        exact h ▸ scanSign_spec c rest

/-! ## All tokens -/

/-- What stands next in a text. -/
inductive Next
  /-- The end of the text. -/
  | stop (place : Position)
  /-- A token, and the text after it. -/
  | token (t : Token) (place : Position) (rest : List Char)

/-- What stands next in a text that begins at a place. -/
def nextToken (p : Position) (cs : List Char) : Except Malformed Next := do
  let (place, cs) ← skipGap .blank p cs
  match cs with
  | [] => .ok (.stop place)
  | c :: rest =>
    let s ← scanToken place c rest
    .ok (.token ⟨s.kind, place⟩ (place.after s.covered) s.rest)

/-- A token takes at least one character. -/
theorem length_lt_of_nextToken {p q : Position} {cs rest : List Char} {t : Token}
    (h : nextToken p cs = .ok (.token t q rest)) : rest.length < cs.length := by
  simp only [nextToken, bind, Except.bind] at h
  split at h
  · simp at h
  · next found hgap =>
    obtain ⟨passed, hcs, -⟩ := skipGap_spec hgap
    split at h
    · simp at h
    · next c after hfound =>
      split at h
      · simp at h
      · next s hscan =>
        simp only [Except.ok.injEq, Next.token.injEq] at h
        obtain ⟨hcover, hne⟩ := scanToken_spec hscan
        have hpos := List.length_pos_iff.2 hne
        have hlen := congrArg List.length hcover
        simp only [List.length_append, h.2.2] at hlen
        simp only [hcs, hfound, List.length_append]
        omega

/-- The tokens of a text, and the place where it ends. -/
structure Lexed where
  tokens : List Token
  stop : Position
deriving DecidableEq, Repr

/-- The tokens of a text that begins at a place. -/
def lexFrom (p : Position) (cs : List Char) : Except Malformed Lexed :=
  match _ : nextToken p cs with
  | .error e => .error e
  | .ok (.stop place) => .ok ⟨[], place⟩
  | .ok (.token t place rest) => do
    let ⟨tokens, stop⟩ ← lexFrom place rest
    .ok ⟨t :: tokens, stop⟩
termination_by cs.length
decreasing_by exact length_lt_of_nextToken ‹_›

/-- The tokens of a text. -/
def lex (text : List Char) : Except Malformed Lexed :=
  lexFrom .start text

end PocketSql
