/-
  Tokens that are written apart, with blanks, comments and reserved words in any case.

  * `Written`: a text is a token as it may be written; `Written.startsWith`: before the end of a
    text and before a character that ends tokens it is that token;
  * `Spacing`: blanks and closed comments in any order; `Spacing.lexesTo`: they lex to no token;
  * `Typed`: written tokens with spacing between them that begins with a blank;
  * `lex_typed`: such a text lexes to exactly these tokens.
-/
import PocketSql.Proofs.Token.Endings
import Mathlib.Data.List.TakeWhile

namespace PocketSql

/-! ## Words -/

section
variable {c : Char} {word rest : List Char} {k : Keyword}

/-- What stands for a small letter of a reserved word is a letter. -/
theorem isLetter_of_foldLetter (h : (foldLetter c).isLower = true) : isLetter c = true := by
  have hcapitals : ∀ k ≤ 25, letterRanges.holdsCode (65 + k) = true := by decide +kernel
  have hsmalls : ∀ k ≤ 25, letterRanges.holdsCode (97 + k) = true := by decide +kernel
  unfold foldLetter at h
  split at h
  · next hkelvin =>
    rw [hkelvin]
    decide +kernel
  · unfold Char.toLower at h
    split at h
    · next hcapital =>
      have hlow : 65 ≤ c.toNat := hcapital.1
      have hhigh : c.toNat ≤ 90 := hcapital.2
      have hcode := hcapitals (c.toNat - 65) (by omega)
      rwa [Nat.add_sub_cancel' hlow] at hcode
    · obtain ⟨hlow, hhigh⟩ := Bool.and_eq_true_iff.1 h
      have hlow : 97 ≤ c.toNat := of_decide_eq_true hlow
      have hhigh : c.toNat ≤ 122 := of_decide_eq_true hhigh
      have hcode := hsmalls (c.toNat - 97) (by omega)
      rwa [Nat.add_sub_cancel' hlow] at hcode

/-- A reserved word in any case consists of letters. -/
theorem isLetter_of_foldKeyword (h : foldKeyword word = lowerText k.spelling.toList) :
    word ≠ [] ∧ ∀ d ∈ word, isLetter d = true := by
  have hspelling : lowerText k.spelling.toList ≠ [] ∧
      (lowerText k.spelling.toList).all Char.isLower = true := by
    cases k <;> decide +kernel
  obtain ⟨hne, hlower⟩ := hspelling
  refine ⟨?_, fun d hd => isLetter_of_foldLetter ?_⟩
  · rintro rfl
    exact hne h.symm
  · exact List.all_eq_true.1 hlower _ (h ▸ List.mem_map_of_mem hd)

/-- A reserved word in any case is a word and found as that reserved word. -/
theorem exists_word_of_foldKeyword (h : foldKeyword word = lowerText k.spelling.toList) :
    ∃ c rest, word = c :: rest ∧ startsName c = true ∧ (∀ d ∈ rest, continuesName d = true) ∧
      wordKind word = .keyword k := by
  have hfound : Keyword.dictionary.lookup (lowerText k.spelling.toList) = some k := by
    cases k <;> decide +kernel
  obtain ⟨hne, hletters⟩ := isLetter_of_foldKeyword h
  cases word with
  | nil => exact absurd rfl hne
  | cons c rest =>
    refine ⟨c, rest, rfl, ?_, fun d hd => ?_, ?_⟩
    · rw [startsName, hletters c List.mem_cons_self, Bool.true_or]
    · rw [continuesName, hletters d (List.mem_cons_of_mem c hd), Bool.true_or, Bool.true_or]
    · rw [wordKind, Keyword.ofWord?, h, hfound]

/-- In any case of the letters `A` to `Z`, a reserved word is found. -/
theorem foldKeyword_of_sameIgnoringCase (h : sameIgnoringCase word k.spelling.toList = true) :
    foldKeyword word = lowerText k.spelling.toList := by
  have hlower : (lowerText k.spelling.toList).all Char.isLower = true := by
    cases k <;> decide +kernel
  rw [← eq_of_beq h] at hlower ⊢
  refine List.map_congr_left fun c hc => if_neg ?_
  rintro rfl
  exact absurd (List.all_eq_true.1 hlower _ (List.mem_map_of_mem hc)) (by decide)

/-- A word is a reserved word or a name. -/
theorem startsWith_word (hc : startsName c = true) (hword : ∀ d ∈ word, continuesName d = true)
    (h : Apart rest) : StartsWith (c :: (word ++ rest)) (wordKind (c :: word)) rest := by
  have hne {d : Char} (hd : startsName d = false) : c ≠ d := ne_of_holds hc hd
  have hsingle : c ≠ '\x27' := hne (by decide +kernel)
  have hdouble : c ≠ '"' := hne (by decide +kernel)
  have hminus : c ≠ '-' := hne (by decide +kernel)
  have hslash : c ≠ '/' := hne (by decide +kernel)
  have hpoint : c ≠ '.' := hne (by decide +kernel)
  have hnumber : startsNumber c word = false := by
    simp [startsNumber, isDigit_of_startsName hc, hpoint]
  have halone : scanToken .start c word = .ok ⟨wordKind (c :: word), c :: word, []⟩ := by
    have htake := List.takeWhile_eq_self_iff.2 hword
    have hdrop := List.dropWhile_eq_nil_iff.2 hword
    simp [scanToken, hsingle, hdouble, hnumber, hc, htake, hdrop]
  exact startsWith_apart (isBlank_of_startsName hc) (absurd · hminus) (absurd · hslash)
    (scanToken_apart hsingle hdouble halone h) h

end

/-! ## Numbers -/

/-- Digits, with a point after or before some of them. -/
inductive Mantissa : List Char → Prop
  | whole {digits} : digits ≠ [] → (∀ d ∈ digits, d.isDigit = true) → Mantissa digits
  | pointed {digits decimals} : digits ≠ [] → (∀ d ∈ digits, d.isDigit = true) →
      (∀ d ∈ decimals, d.isDigit = true) → Mantissa (digits ++ '.' :: decimals)
  | fraction {decimals} : decimals ≠ [] → (∀ d ∈ decimals, d.isDigit = true) →
      Mantissa ('.' :: decimals)

/-- The letter of an exponent with an optional sign and digits, or nothing. -/
inductive Exponent : List Char → Prop
  | none : Exponent []
  | some {e sign digits} : e ∈ ['e', 'E'] → sign ∈ [[], ['+'], ['-']] → digits ≠ [] →
      (∀ d ∈ digits, d.isDigit = true) → Exponent (e :: (sign ++ digits))

theorem Exponent.head {exponent : List Char} (h : Exponent exponent) :
    ∀ c ∈ exponent.head?, c.isDigit = false ∧ c ≠ '.' := by
  cases h with
  | none => nofun
  | some he =>
    rintro _ ⟨⟩
    simp only [List.mem_cons, List.not_mem_nil, or_false] at he
    rcases he with rfl | rfl <;> decide

theorem Exponent.span {exponent : List Char} (h : Exponent exponent) :
    spanFraction exponent = ([], exponent) ∧ spanExponent exponent = (exponent, []) := by
  cases h with
  | none => exact ⟨rfl, rfl⟩
  | @some e sign digits he hsign hne hdigits =>
    have hletter : e ≠ '.' ∧ (e = 'e' ∨ e = 'E') := by
      simp only [List.mem_cons, List.not_mem_nil, or_false] at he
      rcases he with rfl | rfl <;> decide
    have hsigned : spanSign (sign ++ digits) = (sign, digits) := by
      simp only [List.mem_cons, List.not_mem_nil, or_false] at hsign
      rcases hsign with rfl | rfl | rfl
      · obtain ⟨d, digits, rfl⟩ := List.exists_cons_of_ne_nil hne
        have hplus : d ≠ '+' := ne_of_holds (hdigits d List.mem_cons_self) rfl
        have hminus : d ≠ '-' := ne_of_holds (hdigits d List.mem_cons_self) rfl
        simp [spanSign, hplus, hminus]
      · rfl
      · rfl
    have htake := List.takeWhile_eq_self_iff.2 hdigits
    have hdrop := List.dropWhile_eq_nil_iff.2 hdigits
    exact ⟨by simp [spanFraction, hletter.1],
      by simp [spanExponent, hsigned, htake, hdrop, hletter.2, hne]⟩

/-- A number is taken as a whole. -/
theorem Mantissa.span {mantissa exponent : List Char} (h : Mantissa mantissa)
    (h' : Exponent exponent) : ∃ c cs, mantissa ++ exponent = c :: cs ∧
      startsNumber c cs = true ∧ spanNumber (c :: cs) = (c :: cs, []) := by
  obtain ⟨hfraction, hexponent⟩ := h'.span
  have hhead : ∀ c ∈ exponent.head?, c.isDigit = false := fun c hc => (h'.head c hc).1
  cases h with
  | whole hne hdigits =>
    obtain ⟨c, digits, rfl⟩ := List.exists_cons_of_ne_nil hne
    obtain ⟨htake, hdrop⟩ := takeWhile_of_head hdigits hhead
    refine ⟨c, digits ++ exponent, rfl, ?_, ?_⟩
    · simp [startsNumber, hdigits c List.mem_cons_self]
    · rw [← List.cons_append, spanNumber, htake, hdrop, hfraction]
      simp [hexponent]
  | @pointed _ decimals hne hdigits hdecimals =>
    obtain ⟨c, digits, rfl⟩ := List.exists_cons_of_ne_nil hne
    have hpoint : ∀ d ∈ ('.' :: (decimals ++ exponent)).head?, d.isDigit = false := by
      rintro _ ⟨⟩
      rfl
    obtain ⟨htake, hdrop⟩ := takeWhile_of_head hdigits hpoint
    obtain ⟨htake', hdrop'⟩ := takeWhile_of_head hdecimals hhead
    refine ⟨c, digits ++ '.' :: (decimals ++ exponent), by simp, ?_, ?_⟩
    · simp [startsNumber, hdigits c List.mem_cons_self]
    · rw [← List.cons_append, spanNumber, htake, hdrop]
      simp [spanFraction, htake', hdrop', hexponent]
  | @fraction decimals hne hdecimals =>
    obtain ⟨htake, hdrop⟩ := takeWhile_of_head hdecimals hhead
    obtain ⟨d, digits, rfl⟩ := List.exists_cons_of_ne_nil hne
    refine ⟨'.', d :: (digits ++ exponent), rfl, ?_, ?_⟩
    · simp [startsNumber, hdecimals d List.mem_cons_self]
    · rw [List.cons_append] at htake hdrop
      simp [spanNumber, spanFraction, htake, hdrop, hexponent]

/-- A number is a number as it is written. -/
theorem startsWith_number {mantissa exponent rest : List Char} (h : Mantissa mantissa)
    (h' : Exponent exponent) (hrest : Apart rest) : StartsWith (mantissa ++ exponent ++ rest)
      (.number (String.ofList (mantissa ++ exponent))) rest := by
  obtain ⟨c, cs, htext, hstarts, hspan⟩ := h.span h'
  rw [htext]
  have hne {d : Char} (hdigit : d.isDigit = false) (hd : d ≠ '.') : c ≠ d := by
    rintro rfl
    simp [startsNumber, hdigit, hd] at hstarts
  have hsingle : c ≠ '\x27' := hne rfl (by decide)
  have hdouble : c ≠ '"' := hne rfl (by decide)
  have hminus : c ≠ '-' := hne rfl (by decide)
  have hslash : c ≠ '/' := hne rfl (by decide)
  have halone : scanToken .start c cs =
      .ok ⟨.number (String.ofList (c :: cs)), c :: cs, []⟩ := by
    simp [scanToken, hsingle, hdouble, hstarts, hspan]
  have hblank : isBlank c = false := by
    unfold startsNumber at hstarts
    rcases Bool.or_eq_true_iff.1 hstarts with hdigit | hpoint
    · exact isBlank_of_isDigit hdigit
    · have hc : c = '.' := by simpa using (Bool.and_eq_true_iff.1 hpoint).1
      rw [hc]
      decide
  exact startsWith_apart hblank (absurd · hminus) (absurd · hslash)
    (scanToken_apart hsingle hdouble halone hrest) hrest

/-! ## Tokens -/

/-- A character that begins no token but stands for itself. -/
structure Meaningless (c : Char) : Prop where
  blank : isBlank c = false
  quote : c ≠ '\x27' ∧ c ≠ '"'
  digit : c.isDigit = false
  name : startsName c = false
  sign : c ∉ ['=', '<', '>', '-', '*', '(', ')', ',', ';', '.']

/-- A text is a token as it may be written. -/
inductive Written : List Char → TokenKind → Prop
  /-- A reserved word in any case. -/
  | keyword {word k} : foldKeyword word = lowerText k.spelling.toList → Written word (.keyword k)
  | sign (s) : Written s.spelling.toList (.sign s)
  /-- The other spelling of `!=`. -/
  | lessGreater : Written ['<', '>'] (.sign .ne)
  | number {mantissa exponent} : Mantissa mantissa → Exponent exponent →
      Written (mantissa ++ exponent) (.number (String.ofList (mantissa ++ exponent)))
  /-- A text in quotes of one of the two kinds, which are doubled inside of it. -/
  | text {quote} (value) : quote ∈ ['\x27', '"'] →
      Written (quote :: (doubled quote value ++ [quote])) (.text (String.ofList value))
  /-- A word that is no reserved word in any case. -/
  | name {c word} : startsName c = true → (∀ d ∈ word, continuesName d = true) →
      (∀ k : Keyword, foldKeyword (c :: word) ≠ lowerText k.spelling.toList) →
      Written (c :: word) (.name (String.ofList (c :: word)))
  | unknown {c} : Meaningless c → Written [c] (.unknown c)

theorem Mantissa.ne_nil {mantissa : List Char} (h : Mantissa mantissa) : mantissa ≠ [] := by
  cases h with
  | whole hne => exact hne
  | pointed hne => exact List.append_ne_nil_of_left_ne_nil hne _
  | fraction => exact List.cons_ne_nil _ _

theorem Written.ne_nil {piece : List Char} {kind : TokenKind} (h : Written piece kind) :
    piece ≠ [] := by
  cases h with
  | keyword hword => exact (isLetter_of_foldKeyword hword).1
  | sign s => cases s <;> exact List.cons_ne_nil _ _
  | number hm => exact List.append_ne_nil_of_left_ne_nil hm.ne_nil _
  | lessGreater | text | name | unknown => exact List.cons_ne_nil _ _

section
variable {rest : List Char}

theorem startsWith_sign (s : Sign) (h : Apart rest) :
    StartsWith (s.spelling.toList ++ rest) (.sign s) rest := by
  have hspelling : ∃ c cs, s.spelling.toList = c :: cs ∧ isBlank c = false ∧ (c = '-' → cs = []) ∧
      (c = '/' → cs = []) ∧ c ≠ '\x27' ∧ c ≠ '"' ∧
      scanToken .start c cs = .ok ⟨.sign s, c :: cs, []⟩ := by
    cases s <;> exact ⟨_, _, rfl, by decide, by decide, by decide, by decide, by decide, rfl⟩
  obtain ⟨c, cs, htext, hblank, hminus, hslash, hsingle, hdouble, halone⟩ := hspelling
  rw [htext]
  exact startsWith_apart hblank hminus hslash (scanToken_apart hsingle hdouble halone h) h

theorem startsWith_quoted {quote : Char} (value : List Char) (hquote : quote ∈ ['\x27', '"'])
    (h : Apart rest) :
    StartsWith (quote :: (doubled quote value ++ [quote] ++ rest)) (.text (String.ofList value))
      rest := by
  have hplain : isBlank quote = false ∧ endsToken quote = false ∧ quote ≠ '-' ∧ quote ≠ '/' ∧
      (quote = '\x27' ∨ quote = '"') := by
    simp only [List.mem_cons, List.not_mem_nil, or_false] at hquote
    rcases hquote with rfl | rfl <;> decide
  obtain ⟨hblank, hends, hminus, hslash, heither⟩ := hplain
  have hquoted := scanQuoted_doubled value (h.head?_ne hends)
  have hscan : ∀ p, scanToken p quote (doubled quote value ++ [quote] ++ rest) =
      .ok ⟨.text (String.ofList value), quote :: (doubled quote value ++ [quote]), rest⟩ := by
    intro p
    rw [List.append_assoc, List.singleton_append, scanToken, if_pos (by simpa using heither),
      hquoted]
  exact startsWith_plain hblank hminus hslash hscan

theorem Meaningless.startsWith {c : Char} (hc : Meaningless c) (h : Apart rest) :
    StartsWith (c :: rest) (.unknown c) rest := by
  have hnumber : startsNumber c [] = false := by simp [startsNumber, hc.digit]
  have hsign : scanSign c [] = ⟨.unknown c, [c], []⟩ := by
    have hne := hc.sign
    simp only [List.mem_cons, List.not_mem_nil, or_false, not_or] at hne
    rw [scanSign] <;> simp [hne]
  have halone : scanToken .start c [] = .ok ⟨.unknown c, [c], []⟩ := by
    simp [scanToken, hc.quote, hnumber, hc.name, hsign]
  have hscan : ∀ p, scanToken p c ([] ++ rest) = .ok ⟨.unknown c, [c], rest⟩ :=
    scanToken_apart hc.quote.1 hc.quote.2 halone h
  exact startsWith_apart hc.blank (fun _ => rfl) (fun _ => rfl) hscan h

/-- A text begins with the token that is written at its start. -/
theorem Written.startsWith {piece : List Char} {kind : TokenKind} (hpiece : Written piece kind)
    (h : Apart rest) : StartsWith (piece ++ rest) kind rest := by
  cases hpiece with
  | keyword hword =>
    obtain ⟨c, word, rfl, hc, hcs, hkind⟩ := exists_word_of_foldKeyword hword
    exact hkind ▸ startsWith_word hc hcs h
  | sign s => exact startsWith_sign s h
  | lessGreater => exact startsWith_plain (by decide) (by decide) (by decide) fun _ => rfl
  | number hm he => exact startsWith_number hm he h
  | text value hquote => exact startsWith_quoted value hquote h
  | @name c word hc hword hnone =>
    have hlookup : Keyword.ofWord? (c :: word) = none := by
      refine List.lookup_eq_none_iff.2 fun entry hentry => ?_
      obtain ⟨k, -, rfl⟩ := List.mem_map.1 hentry
      simpa using hnone k
    have hkind : wordKind (c :: word) = .name (String.ofList (c :: word)) := by
      rw [wordKind, hlookup]
    exact hkind ▸ startsWith_word hc hword h
  | unknown hc => exact hc.startsWith h

end

/-! ## Spacing -/

/-- Blanks and closed comments, in any order. -/
inductive Spacing : List Char → Prop
  | nil : Spacing []
  | blank {c gap} : isBlank c = true → Spacing gap → Spacing (c :: gap)
  /-- A comment up to the end of its line. -/
  | line {comment gap} : '\n' ∉ comment → Spacing gap →
      Spacing ('-' :: '-' :: (comment ++ '\n' :: gap))
  /-- A comment up to the first mark that closes it. -/
  | block {comment gap} : ¬ ['*', '/'] <:+: comment → Spacing gap →
      Spacing ('/' :: '*' :: (comment ++ '*' :: '/' :: gap))

theorem skipGap_line {comment : List Char} (h : '\n' ∉ comment) (rest : List Char)
    (p : Position) :
    ∃ q, skipGap .lineComment p (comment ++ '\n' :: rest) = skipGap .blank q rest := by
  induction comment generalizing p with
  | nil => exact ⟨_, by rw [List.nil_append, skipGap, if_pos rfl]⟩
  | cons c comment ih =>
    obtain ⟨hc, hcomment⟩ := List.ne_and_not_mem_of_not_mem_cons h
    obtain ⟨q, hq⟩ := ih hcomment (p.next c)
    exact ⟨q, by rw [List.cons_append, skipGap, if_neg (Ne.symm hc), hq]⟩

theorem skipGap_block {comment : List Char} (h : ¬ ['*', '/'] <:+: comment) (rest : List Char)
    (p : Position) :
    ∃ q, skipGap .blockComment p (comment ++ '*' :: '/' :: rest) = skipGap .blank q rest := by
  induction comment generalizing p with
  | nil => exact ⟨_, by rw [List.nil_append, skipGap]⟩
  | cons c comment ih =>
    obtain ⟨q, hq⟩ := ih (fun hinfix => h (List.infix_cons hinfix)) (p.next c)
    refine ⟨q, ?_⟩
    rw [List.cons_append, skipGap, hq]
    -- the mark neither begins with `c` nor with the last character of the comment
    rintro rest' rfl hrest
    cases comment with
    | nil => cases hrest
    | cons d comment =>
      obtain ⟨rfl, -⟩ := List.cons.inj hrest
      exact h ⟨[], comment, rfl⟩

theorem Spacing.skip {gap : List Char} (h : Spacing gap) (rest : List Char) (p : Position) :
    ∃ q, skipGap .blank p (gap ++ rest) = skipGap .blank q rest := by
  induction h generalizing p with
  | nil => exact ⟨p, rfl⟩
  | blank hc _ ih =>
    obtain ⟨q, hq⟩ := ih (p.next _)
    exact ⟨q, by rw [List.cons_append, skipGap_blank hc, hq]⟩
  | @line comment gap hcomment _ ih =>
    obtain ⟨q, hq⟩ := skipGap_line hcomment (gap ++ rest) (p.after ['-', '-'])
    obtain ⟨r, hr⟩ := ih q
    refine ⟨r, ?_⟩
    rw [List.cons_append, List.cons_append, List.append_assoc, List.cons_append, skipGap, hq, hr]
  | @block comment gap hcomment _ ih =>
    obtain ⟨q, hq⟩ := skipGap_block hcomment (gap ++ rest) (p.after ['/', '*'])
    obtain ⟨r, hr⟩ := ih q
    refine ⟨r, ?_⟩
    rw [List.cons_append, List.cons_append, List.append_assoc, List.cons_append, List.cons_append,
      skipGap, hq, hr]

/-- Spacing lexes to no token. -/
theorem Spacing.lexesTo {gap rest : List Char} {kinds : List TokenKind} (h : Spacing gap)
    (hrest : LexesTo rest kinds) : LexesTo (gap ++ rest) kinds :=
  lexesTo_gap (h.skip rest) hrest

/-! ## Texts -/

/-- Written tokens as a text, with spacing between them that begins with a blank; it may also stand
    after the last one. -/
inductive Typed : List Char → List TokenKind → Prop
  | nil : Typed [] []
  | single {piece kind} : Written piece kind → Typed piece [kind]
  | cons {piece kind c gap text kinds} : Written piece kind → isBlank c = true → Spacing gap →
      Typed text kinds → Typed (piece ++ c :: (gap ++ text)) (kind :: kinds)

theorem Typed.lexesTo {text : List Char} {kinds : List TokenKind} (h : Typed text kinds) :
    LexesTo text kinds := by
  induction h with
  | nil => exact lexesTo_nil
  | single hpiece =>
    have hstarts := hpiece.startsWith apart_nil
    rw [List.append_nil] at hstarts
    exact hstarts.lexesTo lexesTo_nil
  | cons hpiece hc hgap _ ih =>
    exact (hpiece.startsWith (parted_cons hc).apart).lexesTo ((Spacing.blank hc hgap).lexesTo ih)

/-- **Blanks, comments and case do not matter.**  Tokens that are written one after the other, with
    spacing between them that begins with a blank, lex to exactly these tokens. -/
theorem lex_typed {lead text : List Char} {kinds : List TokenKind} (hlead : Spacing lead)
    (h : Typed text kinds) : ∃ l, lex (lead ++ text) = .ok l ∧ kindsOf l.tokens = kinds :=
  hlead.lexesTo h.lexesTo .start

/-- A comment with a quote in it beside another one, and a minus before a comment. -/
theorem lex_typed_comments :
    ∃ l, lex "sElEcT 1.5e-3\t/* ' **/-- */\n- --\n\"a\"\"\" é_1 !".toList = .ok l ∧
      kindsOf l.tokens = [.keyword .select, .number "1.5e-3", .sign .minus, .text "a\"",
        .name "é_1", .unknown '!'] := by
  have hselect : Written "sElEcT".toList (.keyword .select) :=
    .keyword (foldKeyword_of_sameIgnoringCase (by decide))
  have hmantissa : Mantissa (['1'] ++ '.' :: ['5']) :=
    .pointed (by decide) (List.all_eq_true.1 rfl) (List.all_eq_true.1 rfl)
  have hexponent : Exponent ('e' :: (['-'] ++ ['3'])) :=
    .some (by decide) (by decide) (by decide) (List.all_eq_true.1 rfl)
  have hline : Spacing ('-' :: '-' :: (" */".toList ++ '\n' :: [])) := .line (by decide) .nil
  have hempty : Spacing ('-' :: '-' :: ([] ++ '\n' :: [])) := .line (by decide) .nil
  have hcomments := Spacing.block (by decide : ¬ ['*', '/'] <:+: " ' *".toList) hline
  have htext : Written ('"' :: (doubled '"' ['a', '"'] ++ ['"'])) (.text "a\"") :=
    .text ['a', '"'] (by decide)
  have hname : Written ('é' :: ['_', '1']) (.name "é_1") :=
    .name (by decide +kernel) (List.all_eq_true.1 (by decide +kernel)) fun k => by cases k <;> decide
  have hunknown : Written ['!'] (.unknown '!') :=
    .unknown ⟨by decide, by decide, by decide, by decide +kernel, by decide⟩
  have htyped := Typed.cons hselect (c := ' ') (by decide) .nil <|
    .cons (.number hmantissa hexponent) (c := '\t') (by decide) hcomments <|
    .cons (.sign .minus) (c := ' ') (by decide) hempty <|
    .cons htext (c := ' ') (by decide) .nil <|
    .cons hname (c := ' ') (by decide) .nil (.single hunknown)
  exact lex_typed .nil htyped

end PocketSql
