/-
  What the first token of a text decides, when the text cannot be read as tokens.

  * `firstKind`: the first token of a text, which stands after blanks and comments;
    `beginsStatement`: it is the first word of a statement;
  * `Misjudged`: a comment stands before the first word of a statement, or such a word goes on with
    a character that is no letter;
  * `startsStatement_eq_iff`: on all other texts `startsStatement`, which passes over blanks and
    takes letters, finds what the first token says;
  * `parse_first_token`: what this says of the cause that a text is answered with.
-/
import PocketSql.Error
import PocketSql.Proofs.Token.Separation
import PocketSql.Proofs.Token.Squeezing
import PocketSql.Statement.Reader

namespace PocketSql

/-! ## The first token -/

/-- The first token of a text; nothing at its end, or if that token cannot be read. -/
def firstKind (text : List Char) : Option TokenKind :=
  ((nextToken .start text).toOption.bind Next.kind?).map Prod.fst

/-- The first word of a statement. -/
def TokenKind.startsStatement : TokenKind → Bool
  | keyword k => k.startsStatement
  | _ => false

/-- The first token of a text is the first word of a statement. -/
def beginsStatement (text : List Char) : Bool :=
  ((firstKind text).map TokenKind.startsStatement).getD false

/-- A comment stands at the start of a text. -/
def beginsComment : List Char → Bool
  | '-' :: '-' :: _ | '/' :: '*' :: _ => true
  | _ => false

/-- The texts whose first token is taken for another one. -/
inductive Misjudged (text : List Char) : Prop
  /-- Comments are not passed over. -/
  | commented : beginsComment (trimLeft text) = true → beginsStatement text = true → Misjudged text
  /-- A word is taken to end before a character that is no letter. -/
  | continued {word d rest} : trimLeft text = word ++ d :: rest →
      (wordKind word).startsStatement = true → isLetter d = false → continuesName d = true →
      Misjudged text

section
variable {text cs word : List Char} {c : Char}

/-! ### Words -/

theorem isLetter_of_startsStatement (h : (wordKind word).startsStatement = true) :
    word ≠ [] ∧ ∀ d ∈ word, isLetter d = true := by
  unfold wordKind at h
  split at h
  · next k hk =>
    obtain ⟨before, after, hsplit, -⟩ := List.lookup_eq_some_iff.1 hk
    have hentry : (foldKeyword word, k) ∈ Keyword.dictionary := hsplit ▸ by simp
    obtain ⟨k', -, heq⟩ := List.mem_map.1 hentry
    exact isLetter_of_foldKeyword (Prod.mk.inj heq).1.symm
  · cases h

/-- A word with a character that is no letter begins no statement. -/
theorem startsStatement_of_not_letter {d : Char} (hd : d ∈ word) (hletter : isLetter d = false) :
    (wordKind word).startsStatement = false := by
  rw [Bool.eq_false_iff]
  intro h
  cases hletter.symm.trans ((isLetter_of_startsStatement h).2 d hd)

/-- What is taken from a text that begins with no letter begins no statement. -/
theorem startsStatement_takeWhile (hc : isLetter c = false) (p : Char → Bool) (rest : List Char) :
    (wordKind ((c :: rest).takeWhile p)).startsStatement = false := by
  by_cases hp : p c = true
  · rw [List.takeWhile_cons_of_pos hp]
    exact startsStatement_of_not_letter List.mem_cons_self hc
  · rw [List.takeWhile_cons_of_neg hp]
    rfl

theorem startsStatement_eq (text : List Char) : startsStatement text =
    (wordKind ((trimLeft text).takeWhile isLetter)).startsStatement := by
  rw [startsStatement, wordKind]
  cases Keyword.ofWord? ((trimLeft text).takeWhile isLetter) <;> rfl

/-! ### The first token as a word -/

theorem firstKind_eq (text : List Char) :
    firstKind text = ((nextKind text).bind id).map Prod.fst := by
  rw [firstKind, ← toOption_nextToken .start]
  cases (nextToken .start text).toOption <;> rfl

/-- A word is taken as far as its characters go on a name. -/
theorem scanKind_word (hc : startsName c = true) (rest : List Char) :
    scanKind (c :: rest) = some (some (wordKind ((c :: rest).takeWhile continuesName),
      (c :: rest).dropWhile continuesName)) := by
  have hne {d : Char} (hd : startsName d = false) : c ≠ d := ne_of_holds hc hd
  have hsingle : c ≠ '\x27' := hne (by decide +kernel)
  have hdouble : c ≠ '"' := hne (by decide +kernel)
  have hpoint : c ≠ '.' := hne (by decide +kernel)
  have hnumber : startsNumber c rest = false := by
    simp [startsNumber, isDigit_of_startsName hc, hpoint]
  simp [scanKind, scanToken, hsingle, hdouble, hnumber, hc, continuesName_of_startsName hc,
    Except.toOption]

/-- A token that is no word begins no statement. -/
theorem startsStatement_scanKind {rest left : List Char} {kind : TokenKind}
    (hc : startsName c = false) (h : scanKind (c :: rest) = some (some (kind, left))) :
    kind.startsStatement = false := by
  obtain ⟨scan, hscan, heq⟩ := Option.map_eq_some_iff.1 h
  rw [toOption_eq_some] at hscan
  cases heq
  unfold scanToken at hscan
  split at hscan
  · split at hscan
    · cases hscan
      rfl
    · cases hscan
  · split at hscan
    · cases hscan
      rfl
    · rw [hc, if_neg Bool.false_ne_true] at hscan
      cases hscan
      unfold scanSign
      split <;> rfl

theorem isLetter_of_startsName (hc : startsName c = false) : isLetter c = false :=
  (Bool.or_eq_false_iff.1 hc).1

theorem gapRest_of_plain {rest : List Char} (hc : isBlank c = false)
    (h : beginsComment (c :: rest) = false) : gapRest .blank (c :: rest) = some (c :: rest) := by
  refine gapRest_token hc ?_ ?_
  · rintro rfl hhead
    obtain ⟨others, rfl⟩ := List.head?_eq_some_iff.1 hhead
    cases h
  · rintro rfl hhead
    obtain ⟨others, rfl⟩ := List.head?_eq_some_iff.1 hhead
    cases h

/-- Where no comment stands, the first token begins a statement if the first word does, taken as far
    as its characters go on a name. -/
theorem beginsStatement_eq (h : beginsComment (trimLeft text) = false) : beginsStatement text =
    (wordKind ((trimLeft text).takeWhile continuesName)).startsStatement := by
  have hgap : gapRest .blank text = gapRest .blank (trimLeft text) :=
    (gapRest_trimLeft (by decide) text).symm
  rw [beginsStatement, firstKind_eq, nextKind, hgap]
  cases hcs : trimLeft text with
  | nil => rfl
  | cons c rest =>
    rw [gapRest_of_plain (head_trimLeft hcs) (hcs ▸ h), Option.bind_some]
    by_cases hc : startsName c = true
    · rw [scanKind_word hc]
      rfl
    · rw [Bool.not_eq_true] at hc
      rw [startsStatement_takeWhile (isLetter_of_startsName hc)]
      cases hkind : scanKind (c :: rest) with
      | none => rfl
      | some next =>
        cases next with
        | none => rfl
        | some found => exact startsStatement_scanKind hc hkind

/-! ### Which texts are misjudged -/

theorem isLetter_of_beginsComment (h : beginsComment (c :: cs) = true) : isLetter c = false := by
  unfold beginsComment at h
  split at h
  · next heq => cases heq; decide +kernel
  · next heq => cases heq; decide +kernel
  · cases h

/-- Where a comment stands, no word is found. -/
theorem startsStatement_of_beginsComment (h : beginsComment (trimLeft text) = true) :
    startsStatement text = false := by
  rw [startsStatement_eq]
  cases hcs : trimLeft text with
  | nil => rfl
  | cons c rest =>
    exact startsStatement_takeWhile (isLetter_of_beginsComment (hcs ▸ h)) isLetter rest

theorem continuesName_of_isLetter (h : isLetter c = true) : continuesName c = true := by
  rw [continuesName, h, Bool.true_or, Bool.true_or]

/-- The texts that are misjudged are judged wrongly. -/
theorem Misjudged.startsStatement_eq_not (h : Misjudged text) :
    startsStatement text = !beginsStatement text := by
  cases h with
  | commented hcomment hbegins =>
    rw [startsStatement_of_beginsComment hcomment, hbegins, Bool.not_true]
  | @continued word d rest htext hword hletter hname =>
    obtain ⟨hne, hletters⟩ := isLetter_of_startsStatement hword
    have hplain : beginsComment (trimLeft text) = false := by
      obtain ⟨c, cs, rfl⟩ := List.exists_cons_of_ne_nil hne
      rw [Bool.eq_false_iff, htext]
      intro hcomment
      cases (isLetter_of_beginsComment hcomment).symm.trans (hletters c List.mem_cons_self)
    have hlong : d ∈ (word ++ d :: rest).takeWhile continuesName := by
      rw [List.takeWhile_append_of_pos fun c hc => continuesName_of_isLetter (hletters c hc),
        List.takeWhile_cons_of_pos hname]
      simp
    have hshort : (word ++ d :: rest).takeWhile isLetter = word :=
      (takeWhile_of_head hletters (by rintro _ ⟨⟩; exact hletter)).1
    rw [beginsStatement_eq hplain, startsStatement_eq, htext, hshort, hword,
      startsStatement_of_not_letter hlong hletter, Bool.not_false]

/-- All other texts are judged by their first token. -/
theorem startsStatement_eq_of_not_misjudged (h : ¬ Misjudged text) :
    startsStatement text = beginsStatement text := by
  by_cases hcomment : beginsComment (trimLeft text) = true
  · rw [startsStatement_of_beginsComment hcomment]
    exact (Bool.eq_false_iff.2 fun hbegins => h (.commented hcomment hbegins)).symm
  · rw [beginsStatement_eq (Bool.eq_false_iff.2 hcomment), startsStatement_eq]
    -- the letters at the start of the text, and what stands after them
    obtain ⟨word, rest, htext, hword, hrest⟩ : ∃ word rest, trimLeft text = word ++ rest ∧
        (∀ c ∈ word, isLetter c = true) ∧ ∀ c ∈ rest.head?, isLetter c = false :=
      ⟨_, _, List.takeWhile_append_dropWhile.symm, fun c => List.mem_takeWhile_imp,
        head?_dropWhile isLetter (trimLeft text)⟩
    rw [htext, (takeWhile_of_head hword hrest).1,
      List.takeWhile_append_of_pos fun c hc => continuesName_of_isLetter (hword c hc)]
    cases rest with
    | nil => simp
    | cons d rest =>
      have hletter := hrest d rfl
      by_cases hname : continuesName d = true
      · have hlong : d ∈ word ++ (d :: rest).takeWhile continuesName := by
          rw [List.takeWhile_cons_of_pos hname]
          simp
        rw [startsStatement_of_not_letter hlong hletter]
        exact Bool.eq_false_iff.2 fun hstarts => h (.continued htext hstarts hletter hname)
      · rw [List.takeWhile_cons_of_neg hname, List.append_nil]

/-- The first word of a text says what its first token says, but for the texts that are
    misjudged. -/
theorem startsStatement_eq_iff (text : List Char) :
    startsStatement text = beginsStatement text ↔ ¬ Misjudged text := by
  constructor
  · intro heq h
    exact absurd (heq.symm.trans h.startsStatement_eq_not) (by simp)
  · exact startsStatement_eq_of_not_misjudged

end

/-! ## What a text is answered with -/

/-- The tokens of a text begin with its first token. -/
theorem firstKind_of_lex {text : List Char} {l : Lexed} (h : lex text = .ok l) :
    firstKind text = l.tokens.head?.map Token.kind := by
  rw [lex, lexFrom] at h
  split at h
  · cases h
  · next place hnext =>
    cases h
    rw [firstKind, hnext]
    rfl
  · next t q rest hnext =>
    obtain ⟨_, -, h⟩ := bind_eq_ok.1 h
    cases h
    rw [firstKind, hnext]
    rfl

/-- Tokens that begin with no first word of a statement are not supported. -/
theorem parseTokens_unsupported {tokens : List Token}
    (h : ∀ t ∈ tokens.head?, t.kind.startsStatement = false) :
    parseTokens tokens = .error (.refused .unsupportedStatement) := by
  have hread : readStatement tokens = .error (.refused .unsupportedStatement) := by
    unfold readStatement
    split
    · cases h _ rfl
    · cases h _ rfl
    · cases h _ rfl
    · cases h _ rfl
    · cases h _ rfl
    · cases h _ rfl
    · rfl
  rw [parseTokens, hread]
  rfl

theorem parse_of_lex_error {text : List Char} {e : Malformed} (h : lex text = .error e) :
    parse text = .error (if startsStatement text then .malformed e else .unsupportedStatement) := by
  rw [parse, h]

/-- A text that can be read as tokens is not supported if its first token begins no statement. -/
theorem parse_of_lex {text : List Char} {l : Lexed} (h : lex text = .ok l)
    (hbegins : beginsStatement text = false) : parse text = .error .unsupportedStatement := by
  have htokens : ∀ t ∈ l.tokens.head?, t.kind.startsStatement = false := by
    intro t ht
    rwa [beginsStatement, firstKind_of_lex h, ht] at hbegins
  rw [parse, h]
  dsimp only
  rw [parseTokens_unsupported htokens]
  rfl

/-- A text that cannot be read as tokens is answered by its first token: with what cannot be read if
    that token is the first word of a statement, and else as a statement that is not supported, for
    all texts but those that are misjudged.  So texts whose first token begins no statement get the
    same answer, whether or not the rest can be read. -/
theorem parse_first_token (text : List Char) :
    (∀ e, lex text = .error e →
      (parse text = .error (if beginsStatement text then .malformed e else .unsupportedStatement) ↔
        ¬ Misjudged text)) ∧
    (beginsStatement text = false → (Misjudged text → ∃ l, lex text = .ok l) →
      parse text = .error .unsupportedStatement) := by
  constructor
  · intro e he
    rw [parse_of_lex_error he, ← startsStatement_eq_iff]
    cases startsStatement text <;> cases beginsStatement text <;> simp
  · intro hbegins hread
    cases hlex : lex text with
    | ok l => exact parse_of_lex hlex hbegins
    | error e =>
      have hjudged : ¬ Misjudged text := fun h => by
        obtain ⟨l, hl⟩ := hread h
        cases hlex.symm.trans hl
      rw [parse_of_lex_error hlex, startsStatement_eq_of_not_misjudged hjudged, hbegins]
      rfl

/-- `SELECT 'open FROM t` begins with the first word of a statement, `hello 'world` does not. -/
theorem parse_first_token_open :
    parse "SELECT 'open FROM t".toList = .error (.malformed (.openText ⟨1, 8⟩)) ∧
      parse "hello 'world".toList = .error .unsupportedStatement := by
  have hselect : ¬ Misjudged "SELECT 'open FROM t".toList :=
    (startsStatement_eq_iff _).1 (by decide +kernel)
  have hhello : ¬ Misjudged "hello 'world".toList :=
    (startsStatement_eq_iff _).1 (by decide +kernel)
  have hparse := ((parse_first_token _).1 (.openText ⟨1, 8⟩) (by decide +kernel)).2 hselect
  rw [if_pos (by decide +kernel)] at hparse
  exact ⟨hparse, (parse_first_token _).2 (by decide +kernel) fun h => absurd h hhello⟩

/-- The first token of `SELECT1 'open` is a name, that of the other text is SELECT. -/
theorem parse_misjudges :
    (lex "SELECT1 'open".toList = .error (.openText ⟨1, 9⟩) ∧
      firstKind "SELECT1 'open".toList = some (.name "SELECT1") ∧
      parse "SELECT1 'open".toList = .error (.malformed (.openText ⟨1, 9⟩))) ∧
    (lex "/* all */ SELECT 'open FROM t".toList = .error (.openText ⟨1, 18⟩) ∧
      firstKind "/* all */ SELECT 'open FROM t".toList = some (.keyword .select) ∧
      parse "/* all */ SELECT 'open FROM t".toList = .error .unsupportedStatement) := by
  decide +kernel

end PocketSql
