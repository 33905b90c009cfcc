/-
  Written words, numbers, texts and signs lex to the tokens that they stand for.

  * `LexesTo`: the tokens of a text, but for their places; `StartsWith`: the first of them;
  * `Spells`: a piece of text stands for tokens before every text that begins with a character at
    which a piece ends (`Ends`);
  * `spells_word`, `spells_digits`, `spells_quoted`, `spells_sign`: pieces of one token;
  * `IsName`, `spells_literal`: names and literals;
  * `Spelled`: pieces and the tokens that they stand for; `Laid`: pieces as a text, with spaces
    between them where they are needed; `Spelled.lexesTo`: the text lexes to the tokens.
-/
import PocketSql.Proofs.Number.Written
import PocketSql.Proofs.Predicate.Tests
import PocketSql.Statement.Printer

namespace PocketSql

/-! ## Characters -/

/-- A piece of text ends before this character. -/
def isBreak (c : Char) : Bool :=
  [' ', '(', ')', ',', ';'].contains c

/-- A piece of text ends before this text. -/
def Ends (rest : List Char) : Prop :=
  ∀ c ∈ rest.head?, isBreak c = true

section
variable {c : Char} {rest : List Char}

theorem isBreak_iff : isBreak c = true ↔ c = ' ' ∨ c = '(' ∨ c = ')' ∨ c = ',' ∨ c = ';' := by
  simp [isBreak]

theorem ends_nil : Ends [] := nofun

theorem ends_cons (h : isBreak c = true) : Ends (c :: rest) := by
  rintro _ ⟨⟩
  exact h

theorem Ends.head?_ne (h : Ends rest) (hc : isBreak c = false) : rest.head? ≠ some c := by
  intro hrest
  cases hc.symm.trans (h c hrest)

theorem continuesName_of_isBreak (h : isBreak c = true) : continuesName c = false := by
  rcases isBreak_iff.1 h with rfl | rfl | rfl | rfl | rfl <;> decide +kernel

theorem isBlank_of_continuesName (h : continuesName c = true) : isBlank c = false := by
  have hranges : ∀ r ∈ blankRanges, ∀ k ≤ r.2 - r.1, letterRanges.holdsCode (r.1 + k) = false ∧
      numeralRanges.holdsCode (r.1 + k) = false ∧ r.1 + k ≠ '_'.toNat := by decide +kernel
  rw [Bool.eq_false_iff]
  intro hblank
  obtain ⟨r, hr, hlow, hhigh⟩ := CodeRanges.exists_of_holdsCode hblank
  obtain ⟨hletter, hnumeral, hline⟩ := hranges r hr (c.toNat - r.1) (by omega)
  rw [Nat.add_sub_cancel' hlow] at hletter hnumeral hline
  rw [continuesName, isLetter, isNumeral, CodeRanges.holds, CodeRanges.holds, hletter, hnumeral,
    Bool.false_or, Bool.false_or, decide_eq_true_iff] at h
  exact hline (congrArg Char.toNat h)

theorem continuesName_of_startsName (h : startsName c = true) : continuesName c = true := by
  rcases Bool.or_eq_true_iff.1 h with hletter | hline
  · rw [continuesName, hletter, Bool.true_or, Bool.true_or]
  · rw [continuesName, hline, Bool.or_true]

theorem isBlank_of_startsName (h : startsName c = true) : isBlank c = false :=
  isBlank_of_continuesName (continuesName_of_startsName h)

theorem isDigit_of_startsName (h : startsName c = true) : c.isDigit = false := by
  have hcodes : ∀ k ≤ 9, letterRanges.holdsCode (48 + k) = false ∧ 48 + k ≠ '_'.toNat := by
    decide +kernel
  rw [Bool.eq_false_iff]
  intro hdigit
  obtain ⟨hlow, hhigh⟩ := Char.isDigit_iff_toNat.1 hdigit
  have hzero : '0'.toNat = 48 := rfl
  have hnine : '9'.toNat = 57 := rfl
  obtain ⟨hletter, hline⟩ := hcodes (c.toNat - 48) (by omega)
  rw [Nat.add_sub_cancel' (by omega)] at hletter hline
  rw [startsName, isLetter, CodeRanges.holds, hletter, Bool.false_or, decide_eq_true_iff] at h
  exact hline (congrArg Char.toNat h)

theorem ne_of_holds {p : Char → Bool} (h : p c = true) {d : Char} (hd : p d = false) : c ≠ d := by
  rintro rfl
  cases h.symm.trans hd

theorem isBlank_of_isDigit (h : c.isDigit = true) : isBlank c = false := by
  have hcodes : ∀ k ≤ 9, blankRanges.holdsCode (48 + k) = false := by decide +kernel
  obtain ⟨hlow, hhigh⟩ := Char.isDigit_iff_toNat.1 h
  have hzero : '0'.toNat = 48 := rfl
  have hnine : '9'.toNat = 57 := rfl
  have hcode := hcodes (c.toNat - 48) (by omega)
  rwa [Nat.add_sub_cancel' (by omega)] at hcode

theorem takeWhile_of_head {p : Char → Bool} {word : List Char} (hword : ∀ c ∈ word, p c = true)
    (hrest : ∀ c ∈ rest.head?, p c = false) :
    (word ++ rest).takeWhile p = word ∧ (word ++ rest).dropWhile p = rest := by
  rw [List.takeWhile_append_of_pos hword, List.dropWhile_append_of_pos hword]
  cases rest with
  | nil => simp
  | cons d rest => simp [hrest d rfl]

theorem takeWhile_of_ends {p : Char → Bool} (hp : ∀ c, isBreak c = true → p c = false)
    (h : Ends rest) (word : List Char) (hword : ∀ c ∈ word, p c = true) :
    (word ++ rest).takeWhile p = word ∧ (word ++ rest).dropWhile p = rest :=
  takeWhile_of_head hword fun c hc => hp c (h c hc)

end

/-! ## Texts and their tokens -/

/-- A text lexes to tokens of some kinds, wherever it begins. -/
def LexesTo (cs : List Char) (kinds : List TokenKind) : Prop :=
  ∀ p, ∃ l, lexFrom p cs = .ok l ∧ kindsOf l.tokens = kinds

section
variable {c : Char} {cs rest after : List Char} {kind : TokenKind} {kinds : List TokenKind}

theorem lexesTo_nil : LexesTo [] [] := by
  intro p
  refine ⟨⟨[], p⟩, ?_, rfl⟩
  unfold lexFrom
  rfl

theorem lexFrom_token {p q : Position} {t : Token} {l : Lexed}
    (hnext : nextToken p cs = .ok (.token t q rest)) (hl : lexFrom q rest = .ok l) :
    lexFrom p cs = .ok ⟨t :: l.tokens, l.stop⟩ := by
  rw [lexFrom]
  split
  · next e he => cases hnext.symm.trans he
  · next stop hstop => cases hnext.symm.trans hstop
  · next u q' rest' htoken =>
    cases hnext.symm.trans htoken
    simp [hl, bind, Except.bind]

theorem lexFrom_congr {p q : Position} {ds : List Char}
    (h : nextToken p cs = nextToken q ds) : lexFrom p cs = lexFrom q ds := by
  rw [lexFrom, lexFrom, h]

/-- A text begins with a token of a kind, wherever it stands, and another text follows it. -/
def StartsWith (cs : List Char) (kind : TokenKind) (after : List Char) : Prop :=
  ∀ p, ∃ t q, nextToken p cs = .ok (.token t q after) ∧ t.kind = kind

theorem StartsWith.lexesTo (h : StartsWith cs kind after) (hafter : LexesTo after kinds) :
    LexesTo cs (kind :: kinds) := by
  intro p
  obtain ⟨t, q, hnext, rfl⟩ := h p
  obtain ⟨l, hl, rfl⟩ := hafter q
  exact ⟨_, lexFrom_token hnext hl, rfl⟩

/-- A token is taken where no gap begins; it covers some characters. -/
theorem startsWith_token (covered : List Char)
    (hgap : ∀ p, skipGap .blank p (c :: rest) = .ok (p, c :: rest))
    (hscan : ∀ p, scanToken p c rest = .ok ⟨kind, covered, after⟩) :
    StartsWith (c :: rest) kind after := by
  intro p
  refine ⟨⟨kind, p⟩, p.after covered, ?_, rfl⟩
  simp [nextToken, hgap, hscan, bind, Except.bind]

theorem skipGap_blank (hblank : isBlank c = true) (p : Position) :
    skipGap .blank p (c :: rest) = skipGap .blank (p.next c) rest := by
  rw [skipGap, if_pos hblank]
  · rintro _ rfl
    exact absurd hblank (by decide)
  · rintro _ rfl
    exact absurd hblank (by decide)

/-- A text that is passed over lexes to no token. -/
theorem lexesTo_gap {gap : List Char}
    (hgap : ∀ p, ∃ q, skipGap .blank p (gap ++ rest) = skipGap .blank q rest)
    (h : LexesTo rest kinds) : LexesTo (gap ++ rest) kinds := by
  intro p
  obtain ⟨q, hq⟩ := hgap p
  obtain ⟨l, hl, hkinds⟩ := h q
  have hnext : nextToken p (gap ++ rest) = nextToken q rest := by rw [nextToken, nextToken, hq]
  exact ⟨l, (lexFrom_congr hnext).trans hl, hkinds⟩

theorem lexesTo_blank (h : LexesTo rest kinds) : LexesTo (' ' :: rest) kinds :=
  show LexesTo ([' '] ++ rest) kinds from
    lexesTo_gap (fun p => ⟨_, skipGap_blank (by decide) p⟩) h

theorem skipGap_of_plain (hblank : isBlank c = false) (hminus : c ≠ '-') (hslash : c ≠ '/')
    (p : Position) : skipGap .blank p (c :: rest) = .ok (p, c :: rest) := by
  rw [skipGap, if_neg (Bool.eq_false_iff.1 hblank)]
  · rintro - rfl
    exact absurd rfl hminus
  · rintro - rfl
    exact absurd rfl hslash

theorem startsWith_plain {covered : List Char} (hblank : isBlank c = false) (hminus : c ≠ '-')
    (hslash : c ≠ '/') (hscan : ∀ p, scanToken p c rest = .ok ⟨kind, covered, after⟩) :
    StartsWith (c :: rest) kind after :=
  startsWith_token covered (skipGap_of_plain hblank hminus hslash) hscan

theorem lexesTo_plain {covered : List Char} (hblank : isBlank c = false) (hminus : c ≠ '-')
    (hslash : c ≠ '/') (hscan : ∀ p, scanToken p c rest = .ok ⟨kind, covered, after⟩)
    (h : LexesTo after kinds) : LexesTo (c :: rest) (kind :: kinds) :=
  (startsWith_plain hblank hminus hslash hscan).lexesTo h

end

/-! ## Single tokens -/

/-- A piece of text stands for tokens before every text at which a piece ends. -/
def Spells (piece : List Char) (kinds : List TokenKind) : Prop :=
  ∀ rest more, Ends rest → LexesTo rest more → LexesTo (piece ++ rest) (kinds ++ more)

theorem spells_word {c : Char} {word : List Char} (hc : startsName c = true)
    (hword : ∀ d ∈ word, continuesName d = true) : Spells (c :: word) [wordKind (c :: word)] := by
  intro rest more hends hrest
  have hne {d : Char} (hd : startsName d = false) : c ≠ d := ne_of_holds hc hd
  have hnumber : startsNumber c (word ++ rest) = false := by
    simp [startsNumber, isDigit_of_startsName hc, hne (d := '.') (by decide +kernel)]
  obtain ⟨htake, hdrop⟩ := takeWhile_of_ends (fun _ => continuesName_of_isBreak) hends word hword
  have hscan : ∀ p, scanToken p c (word ++ rest) =
      .ok ⟨wordKind (c :: word), c :: word, rest⟩ := by
    simp [scanToken, hne (d := '\x27') (by decide +kernel), hne (d := '"') (by decide +kernel),
      hnumber, hc, htake, hdrop]
  exact lexesTo_plain (isBlank_of_startsName hc) (hne (by decide +kernel))
    (hne (by decide +kernel)) hscan hrest

theorem spanNumber_digits {digits rest : List Char} (hdigits : ∀ d ∈ digits, d.isDigit = true)
    (hends : Ends rest) : spanNumber (digits ++ rest) = (digits, rest) := by
  have hbreak : ∀ c, isBreak c = true → c.isDigit = false := by
    intro c hc
    rcases isBreak_iff.1 hc with rfl | rfl | rfl | rfl | rfl <;> rfl
  obtain ⟨htake, hdrop⟩ := takeWhile_of_ends hbreak hends digits hdigits
  -- what ends a piece is neither a point nor the letter of an exponent
  have hrest : spanFraction rest = ([], rest) ∧ spanExponent rest = ([], rest) := by
    cases rest with
    | nil => exact ⟨rfl, rfl⟩
    | cons c rest =>
      rcases isBreak_iff.1 (hends c rfl) with rfl | rfl | rfl | rfl | rfl <;>
        exact ⟨rfl, by simp [spanExponent]⟩
  simp [spanNumber, htake, hdrop, hrest]

theorem spells_digits {digits : List Char} (hne : digits ≠ [])
    (hdigits : ∀ d ∈ digits, d.isDigit = true) :
    Spells digits [.number (String.ofList digits)] := by
  obtain ⟨c, digits, rfl⟩ := List.exists_cons_of_ne_nil hne
  intro rest more hends hrest
  have hc := hdigits c List.mem_cons_self
  have hspan := spanNumber_digits hdigits hends
  have hother {d : Char} (hd : d.isDigit = false) : c ≠ d := ne_of_holds hc hd
  rw [List.cons_append] at hspan
  have hscan : ∀ p, scanToken p c (digits ++ rest) =
      .ok ⟨.number (String.ofList (c :: digits)), c :: digits, rest⟩ := by
    simp [scanToken, hother (d := '\x27') rfl, hother (d := '"') rfl, startsNumber, hc, hspan]
  exact lexesTo_plain (isBlank_of_isDigit hc) (hother rfl) (hother rfl) hscan hrest

/-- A text with every one of its quotes written twice. -/
def doubled (quote : Char) : List Char → List Char
  | [] => []
  | c :: cs => if c = quote then c :: c :: doubled quote cs else c :: doubled quote cs

theorem scanQuoted_of_ne {c quote : Char} (hc : c ≠ quote) (cs : List Char) :
    scanQuoted quote (c :: cs) = (scanQuoted quote cs).map fun (value, covered, rest) =>
      (c :: value, c :: covered, rest) := by
  cases cs <;> simp [scanQuoted, hc]

theorem scanQuoted_doubled {quote : Char} (value : List Char) {rest : List Char}
    (hrest : rest.head? ≠ some quote) :
    scanQuoted quote (doubled quote value ++ quote :: rest) =
      some (value, doubled quote value ++ [quote], rest) := by
  induction value with
  | nil =>
    cases rest with
    | nil => simp [doubled, scanQuoted]
    | cons c rest =>
      have hc : c ≠ quote := fun h => hrest (congrArg some h)
      simp [doubled, scanQuoted, hc]
  | cons c value ih =>
    by_cases hc : c = quote
    · subst hc
      simp [doubled, scanQuoted, ih]
    · simp [doubled, hc, scanQuoted_of_ne hc, ih]

theorem doubleQuotes_eq (value : List Char) : doubleQuotes value = doubled '\x27' value := by
  induction value with
  | nil => rfl
  | cons c value ih => rw [doubleQuotes, doubled, ih]

theorem spells_quoted (value : String) : Spells (quoted value).toList [.text value] := by
  intro rest more hends hrest
  have hscan := scanQuoted_doubled value.toList (hends.head?_ne (c := '\x27') (by decide))
  rw [← doubleQuotes_eq] at hscan
  have htext : (quoted value).toList ++ rest =
      '\x27' :: (doubleQuotes value.toList ++ '\x27' :: rest) := by simp [quoted]
  have htoken : ∀ p, scanToken p '\x27' (doubleQuotes value.toList ++ '\x27' :: rest) =
      .ok ⟨.text value, '\x27' :: (doubleQuotes value.toList ++ ['\x27']), rest⟩ := by
    simp [scanToken, hscan]
  rw [htext]
  exact lexesTo_plain (by decide) (by decide) (by decide) htoken hrest

/-- The signs that need no space beside them. -/
def closeSigns : List Sign :=
  [.leftParen, .rightParen, .comma]

/-- A parenthesis, a comma or a semicolon is a token before every text. -/
theorem startsWith_delimiter {s : Sign} (hs : s ∈ closeSigns ++ [.semicolon]) (rest : List Char) :
    StartsWith (s.spelling.toList ++ rest) (.sign s) rest := by
  simp only [closeSigns, List.cons_append, List.nil_append, List.mem_cons, List.not_mem_nil,
    or_false] at hs
  rcases hs with rfl | rfl | rfl | rfl <;>
    exact startsWith_plain (by decide) (by decide) (by decide) fun _ => rfl

theorem lexesTo_delimiter {s : Sign} (hs : s ∈ closeSigns ++ [.semicolon]) {rest : List Char}
    {more : List TokenKind} (h : LexesTo rest more) :
    LexesTo (s.spelling.toList ++ rest) (.sign s :: more) :=
  (startsWith_delimiter hs rest).lexesTo h

theorem lexesTo_minus {rest : List Char} {more : List TokenKind} (hrest : rest.head? ≠ some '-')
    (h : LexesTo rest more) : LexesTo ('-' :: rest) (.sign .minus :: more) := by
  refine (startsWith_token ['-'] (fun p => ?_) fun _ => rfl).lexesTo h
  rw [skipGap]
  · rfl
  · rintro rest' - rfl
    exact hrest rfl
  · rintro _ ⟨⟩

theorem spells_sign (s : Sign) : Spells s.spelling.toList [.sign s] := by
  intro rest more hends hrest
  cases s with
  | minus => exact lexesTo_minus (hends.head?_ne (by decide)) hrest
  | leftParen | rightParen | comma | semicolon => exact lexesTo_delimiter (by decide) hrest
  | eq | star | ne | le | ge =>
    exact lexesTo_plain (by decide) (by decide) (by decide) (fun _ => rfl) hrest
  | lt | gt | dot =>
    -- what ends a piece goes on with none of these signs
    cases rest with
    | nil => exact lexesTo_plain (by decide) (by decide) (by decide) (fun _ => rfl) hrest
    | cons c rest =>
      rcases isBreak_iff.1 (hends c rfl) with rfl | rfl | rfl | rfl | rfl <;>
        exact lexesTo_plain (by decide) (by decide) (by decide) (fun _ => rfl) hrest

theorem spells_keyword (k : Keyword) : Spells k.spelling.toList [.keyword k] := by
  have hword : ∃ c word, k.spelling.toList = c :: word ∧ startsName c = true ∧
      word.all continuesName = true ∧ wordKind (c :: word) = .keyword k := by
    cases k <;> exact ⟨_, _, rfl, by decide +kernel, by decide +kernel, by decide +kernel⟩
  obtain ⟨c, word, htext, hc, hrest, hkind⟩ := hword
  have hspells := spells_word hc (List.all_eq_true.1 hrest)
  rwa [hkind, ← htext] at hspells

/-! ## Names -/

/-- A text lexes as a name, which is no reserved word. -/
def IsName (name : String) : Prop :=
  (lex name.toList).toOption.map (fun l => kindsOf l.tokens) = some [.name name]

instance : DecidablePred IsName := fun name =>
  inferInstanceAs (Decidable ((lex name.toList).toOption.map _ = _))

theorem scanToken_eq_name {place : Position} {c : Char} {rest : List Char} {scan : Scan}
    {name : String} (h : scanToken place c rest = .ok scan) (hkind : scan.kind = .name name) :
    startsName c = true ∧ wordKind (c :: rest.takeWhile continuesName) = .name name := by
  unfold scanToken at h
  split at h
  · split at h
    · cases h; cases hkind
    · cases h
  · split at h
    · cases h; cases hkind
    · split at h
      · next hc => cases h; exact ⟨hc, hkind⟩
      · cases h
        unfold scanSign at hkind
        split at hkind <;> cases hkind

theorem wordKind_eq_name {word : List Char} {name : String} (h : wordKind word = .name name) :
    word = name.toList := by
  unfold wordKind at h
  split at h
  · cases h
  · cases h
    rw [String.toList_ofList]

theorem lexFrom_cons {p : Position} {cs : List Char} {l : Lexed} {kind : TokenKind}
    {kinds : List TokenKind} (h : lexFrom p cs = .ok l)
    (hkinds : kindsOf l.tokens = kind :: kinds) :
    ∃ t q rest, nextToken p cs = .ok (.token t q rest) ∧ t.kind = kind := by
  rw [lexFrom] at h
  split at h
  · cases h
  · cases h; cases hkinds
  · next t q rest hnext =>
    obtain ⟨_, -, h⟩ := bind_eq_ok.1 h
    cases h
    exact ⟨t, q, rest, hnext, (List.cons.inj hkinds).1⟩

theorem nextToken_eq_token {p q : Position} {cs rest : List Char} {t : Token}
    (h : nextToken p cs = .ok (.token t q rest)) :
    ∃ passed c after scan, cs = passed ++ c :: after ∧ scanToken t.place c after = .ok scan ∧
      scan.kind = t.kind := by
  simp only [nextToken, bind_eq_ok] at h
  obtain ⟨⟨place, left⟩, hgap, h⟩ := h
  obtain ⟨passed, rfl, -⟩ := skipGap_spec hgap
  cases left with
  | nil => cases h
  | cons c after =>
    obtain ⟨scan, hscan, h⟩ := bind_eq_ok.1 h
    cases h
    exact ⟨passed, c, after, scan, rfl, hscan, rfl⟩

/-- A name is one word, without anything around it. -/
theorem IsName.exists_word {name : String} (h : IsName name) :
    ∃ c word, name.toList = c :: word ∧ startsName c = true ∧
      (∀ d ∈ word, continuesName d = true) ∧ wordKind (c :: word) = .name name := by
  obtain ⟨l, hlex, hkinds⟩ := Option.map_eq_some_iff.1 h
  rw [toOption_eq_some] at hlex
  obtain ⟨t, q, rest, hnext, hkind⟩ := lexFrom_cons hlex hkinds
  obtain ⟨passed, c, after, scan, htext, hscan, hscanned⟩ := nextToken_eq_token hnext
  obtain ⟨hc, hword⟩ := scanToken_eq_name hscan (hscanned.trans hkind)
  -- the word is the whole text, so that nothing stands before it or after it
  have hwhole := wordKind_eq_name hword
  have hsplit := List.takeWhile_append_dropWhile (p := continuesName) (l := after)
  have hlength := congrArg List.length (hwhole.trans htext)
  have hlength' := congrArg List.length hsplit
  simp only [List.length_cons, List.length_append] at hlength hlength'
  have hnone : after.dropWhile continuesName = [] := List.length_eq_zero_iff.1 (by omega)
  rw [hnone, List.append_nil] at hsplit
  refine ⟨c, after, ?_, hc, fun d hd => ?_, ?_⟩
  · rw [← hwhole, hsplit]
  · rw [← hsplit] at hd
    exact List.all_eq_true.1 List.all_takeWhile d hd
  · rwa [hsplit] at hword

theorem IsName.spells {name : String} (h : IsName name) : Spells name.toList [.name name] := by
  obtain ⟨c, word, htext, hc, hword, hkind⟩ := h.exists_word
  have hspells := spells_word hc hword
  rwa [hkind, ← htext] at hspells

/-! ## Literals -/

/-- An integer, a text, a truth value or NULL. -/
def Value.isPlain : Value → Bool
  | integer _ | text _ | boolean _ | null => true
  | decimal _ | instant _ => false

theorem spells_count (n : Nat) : Spells (toString n).toList [.number (toString n)] := by
  have h := spells_digits (Nat.toDigits_ne_nil (n := n)) fun _ => isDigit_of_mem_toDigits
  rwa [← Nat.toString_eq_ofList_toDigits, ← toList_toString_nat] at h

theorem head?_toDigits_ne (n : Nat) (rest : List Char) :
    (Nat.toDigits 10 n ++ rest).head? ≠ some '-' := by
  obtain ⟨c, digits, hdigits⟩ := List.exists_cons_of_ne_nil (Nat.toDigits_ne_nil (n := n) (b := 10))
  rw [hdigits]
  rintro ⟨⟩
  cases isDigit_of_mem_toDigits (hdigits ▸ List.mem_cons_self)

theorem spells_literal {v : Value} (h : v.isPlain = true) :
    ∃ kinds, Spells v.literal.toList kinds ∧ SpellsLiteral kinds v := by
  cases v with
  | null => exact ⟨_, spells_keyword .null, .null⟩
  | text s => exact ⟨_, spells_quoted s, .text⟩
  | boolean b =>
    cases b with
    | true => exact ⟨_, spells_keyword .true_, .true⟩
    | false => exact ⟨_, spells_keyword .false_, .false⟩
  | integer i =>
    have hread := readInt64_toString i
    have hspells := spells_digits (Nat.toDigits_ne_nil (n := i.toInt.natAbs)) fun _ =>
      isDigit_of_mem_toDigits
    simp only [Value.literal]
    rw [toList_toString_int] at hread ⊢
    by_cases hneg : i.toInt < 0
    · rw [if_pos hneg] at hread ⊢
      refine ⟨[.sign .minus, .number (String.ofList (Nat.toDigits 10 i.toInt.natAbs))],
        fun rest more hends hrest => ?_, .negative ?_⟩
      · exact lexesTo_minus (head?_toDigits_ne _ _) (hspells rest more hends hrest)
      · rw [String.toList_ofList, Value.ofNumberText?, hread]
    · rw [if_neg hneg] at hread ⊢
      refine ⟨_, hspells, .number ?_⟩
      rw [String.toList_ofList, Value.ofNumberText?, hread]
  | decimal | instant => cases h

/-! ## Pieces -/

/-- Pieces of text and the tokens that they stand for, one after the other. -/
inductive Spelled : List String → List TokenKind → Prop
  | nil : Spelled [] []
  | cons {piece ks pieces ls} : Spells piece.toList ks → Spelled pieces ls →
      Spelled (piece :: pieces) (ks ++ ls)

namespace Spelled

variable {pieces pieces' : List String} {ks ls : List TokenKind}

theorem append (h : Spelled pieces ks) (h' : Spelled pieces' ls) :
    Spelled (pieces ++ pieces') (ks ++ ls) := by
  induction h with
  | nil => exact h'
  | cons hpiece _ ih => rw [List.cons_append, List.append_assoc]; exact .cons hpiece ih

theorem single {piece : String} (h : Spells piece.toList ks) : Spelled [piece] ks := by
  have := Spelled.cons h .nil
  rwa [List.append_nil] at this

theorem keyword (k : Keyword) (h : Spelled pieces ks) :
    Spelled (k.spelling :: pieces) (.keyword k :: ks) :=
  .cons (spells_keyword k) h

theorem sign (s : Sign) (h : Spelled pieces ks) :
    Spelled (s.spelling :: pieces) (.sign s :: ks) :=
  .cons (spells_sign s) h

theorem name {n : String} (hn : IsName n) (h : Spelled pieces ks) :
    Spelled (n :: pieces) (.name n :: ks) :=
  .cons hn.spells h

theorem enclosed (h : Spelled pieces ks) :
    Spelled (enclosed pieces) (.sign .leftParen :: (ks ++ [.sign .rightParen])) :=
  .sign .leftParen (h.append (.sign .rightParen .nil))

end Spelled

theorem LexesTo.unique {cs : List Char} {ks ls : List TokenKind} (h : LexesTo cs ks)
    (h' : LexesTo cs ls) : ks = ls := by
  obtain ⟨l, hl, rfl⟩ := h .start
  obtain ⟨l', hl', rfl⟩ := h' .start
  rw [Except.ok.inj (hl.symm.trans hl')]

theorem Spells.unique {piece : List Char} {ks ls : List TokenKind} (h : Spells piece ks)
    (h' : Spells piece ls) : ks = ls := by
  have hunique := (h [] [] ends_nil lexesTo_nil).unique (h' [] [] ends_nil lexesTo_nil)
  rwa [List.append_nil, List.append_nil] at hunique

theorem Spelled.unique {pieces : List String} {ks ls : List TokenKind} (h : Spelled pieces ks)
    (h' : Spelled pieces ls) : ks = ls := by
  induction h generalizing ls with
  | nil => cases h'; rfl
  | cons hpiece _ ih =>
    obtain _ | ⟨hpiece', hrest⟩ := h'
    rw [hpiece.unique hpiece', ih hrest]

theorem separated_cons {α : Type} (pieces : α → List String) (x y : α) (xs : List α) :
    separated ((x :: y :: xs).map pieces) =
      pieces x ++ Sign.comma.spelling :: separated ((y :: xs).map pieces) := by
  simp [separated, List.intercalate]

theorem separated_single {α : Type} (pieces : α → List String) (x : α) :
    separated ([x].map pieces) = pieces x := by
  simp [separated]

/-- What all tokens of some items and a comma satisfy, all tokens of the list of the items do. -/
theorem exists_separated {α : Type} {pieces : α → List String} {P : TokenKind → Prop}
    (hcomma : P (.sign .comma)) {xs : List α}
    (h : ∀ x ∈ xs, ∃ kinds, Spelled (pieces x) kinds ∧ ∀ kind ∈ kinds, P kind) :
    ∃ kinds, Spelled (separated (xs.map pieces)) kinds ∧ ∀ kind ∈ kinds, P kind := by
  induction xs with
  | nil => exact ⟨[], .nil, nofun⟩
  | cons x xs ih =>
    obtain ⟨ks, hks, hfirst⟩ := h x List.mem_cons_self
    cases xs with
    | nil => exact ⟨ks, by rwa [separated_single], hfirst⟩
    | cons y ys =>
      obtain ⟨ls, hls, hothers⟩ := ih fun z hz => h z (List.mem_cons_of_mem x hz)
      refine ⟨ks ++ .sign .comma :: ls, ?_, List.forall_mem_append.2
        ⟨hfirst, List.forall_mem_cons.2 ⟨hcomma, hothers⟩⟩⟩
      rw [separated_cons]
      exact hks.append (.sign .comma hls)

/-! ## Layout -/

/-- Pieces as a text, with a space between every two, which may be missing before and after a
    parenthesis and a comma. -/
inductive Laid : List String → List Char → Prop
  | nil : Laid [] []
  | single {piece} : Laid [piece] piece.toList
  | spaced {piece next pieces text} : Laid (next :: pieces) text →
      Laid (piece :: next :: pieces) (piece.toList ++ ' ' :: text)
  | after {s next pieces text} : s ∈ closeSigns → Laid (next :: pieces) text →
      Laid (s.spelling :: next :: pieces) (s.spelling.toList ++ text)
  | before {piece s pieces text} : s ∈ closeSigns → Laid (s.spelling :: pieces) text →
      Laid (piece :: s.spelling :: pieces) (piece.toList ++ text)

theorem laid_spaced (pieces : List String) : Laid pieces (spaced pieces) := by
  induction pieces with
  | nil => exact .nil
  | cons piece pieces ih =>
    cases pieces with
    | nil => simpa [spaced] using Laid.single
    | cons next pieces =>
      have hspaced : spaced (piece :: next :: pieces) =
          piece.toList ++ ' ' :: spaced (next :: pieces) := by
        simp [spaced, List.intercalate]
      exact hspaced ▸ .spaced ih

/-- Pieces as a text without spaces inside of parentheses and before commas. -/
def compact : List String → List Char
  | [] => []
  | [piece] => piece.toList
  | piece :: next :: pieces =>
    if piece = Sign.leftParen.spelling ∨ next = Sign.rightParen.spelling ∨
        next = Sign.comma.spelling then piece.toList ++ compact (next :: pieces)
    else piece.toList ++ ' ' :: compact (next :: pieces)

theorem laid_compact (pieces : List String) : Laid pieces (compact pieces) := by
  induction pieces with
  | nil => exact .nil
  | cons piece pieces ih =>
    cases pieces with
    | nil => exact .single
    | cons next pieces =>
      unfold compact
      split
      · next hclose =>
        rcases hclose with rfl | rfl | rfl
        · exact .after (by decide) ih
        · exact .before (by decide) ih
        · exact .before (by decide) ih
      · exact .spaced ih

theorem Laid.begins {piece : String} {pieces : List String} {text : List Char}
    (h : Laid (piece :: pieces) text) : ∃ rest, text = piece.toList ++ rest := by
  cases h with
  | single => exact ⟨[], (List.append_nil _).symm⟩
  | spaced | after | before => exact ⟨_, rfl⟩

theorem ends_of_laid {s : Sign} (hs : s ∈ closeSigns) {pieces : List String} {text : List Char}
    (h : Laid (s.spelling :: pieces) text) (ending : List Char) : Ends (text ++ ending) := by
  obtain ⟨rest, rfl⟩ := h.begins
  simp only [closeSigns, List.mem_cons, List.not_mem_nil, or_false] at hs
  rcases hs with rfl | rfl | rfl <;> exact ends_cons rfl

/-- Pieces as a text lex to the tokens that they stand for, in every layout. -/
theorem Spelled.lexesTo {pieces : List String} {ks more : List TokenKind} {text ending : List Char}
    (h : Spelled pieces ks) (hlaid : Laid pieces text) (hends : Ends ending)
    (hending : LexesTo ending more) : LexesTo (text ++ ending) (ks ++ more) := by
  induction hlaid generalizing ks with
  | nil =>
    cases h
    exact hending
  | single =>
    obtain _ | ⟨hpiece, ⟨⟩⟩ := h
    rw [List.append_nil]
    exact hpiece ending more hends hending
  | spaced _ ih =>
    obtain _ | ⟨hpiece, hrest⟩ := h
    rw [List.append_assoc, List.append_assoc]
    exact hpiece _ _ (ends_cons rfl) (lexesTo_blank (ih hrest))
  | @after s _ _ _ hs _ ih =>
    obtain _ | ⟨hpiece, hrest⟩ := h
    rw [hpiece.unique (spells_sign s), List.append_assoc, List.append_assoc]
    exact lexesTo_delimiter (List.subset_append_left closeSigns _ hs) (ih hrest)
  | before hs hlaid ih =>
    obtain _ | ⟨hpiece, hrest⟩ := h
    rw [List.append_assoc, List.append_assoc]
    exact hpiece _ _ (ends_of_laid hs hlaid ending) (ih hrest)

end PocketSql
