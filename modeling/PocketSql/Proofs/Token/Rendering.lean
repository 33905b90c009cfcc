/-
  Tokens written as text again, and what this text lexes to.

  * `written_of_scanToken`, `written_of_lex`: every token of a text is written by the characters that
    it covers;
  * `Written.display`: a token is written as it is displayed, unless it is a text with a quote;
  * `startsWith_display`, `kindsIn_renderAfter`: what stands after a rendered token ends it;
  * `readsBack_iff`: rendered tokens lex to these tokens if and only if no text holds a quote;
  * `lex_renderTokens_iff`: what this says of the tokens of a text and of a clause that is echoed.
-/
import PocketSql.Proofs.Statement.ClauseRemoval
import PocketSql.Proofs.Token.Separation
import PocketSql.Proofs.Token.Squeezing

namespace PocketSql

/-! ## Tokens that are scanned -/

section
variable {c : Char} {cs rest : List Char}

theorem isDigit_of_mem_takeWhile (cs : List Char) :
    ∀ d ∈ cs.takeWhile Char.isDigit, d.isDigit = true :=
  fun d hd => List.all_eq_true.1 List.all_takeWhile d hd

theorem exponent_of_spanExponent (cs : List Char) : Exponent (spanExponent cs).1 := by
  have hsign : ∀ rest, (spanSign rest).1 ∈ [[], ['+'], ['-']] := by
    intro rest
    unfold spanSign
    split <;> simp
  unfold spanExponent
  split
  · exact .none
  · next c rest =>
    dsimp only
    split
    · next h =>
      obtain ⟨hletter, hdigits⟩ := Bool.and_eq_true_iff.1 h
      rw [List.cons_append]
      refine .some ?_ (hsign rest) ?_ (isDigit_of_mem_takeWhile _)
      · simpa using hletter
      · simpa using hdigits
    · exact .none

/-- What is taken as a number is a mantissa and an exponent. -/
theorem exists_mantissa (h : startsNumber c rest = true) :
    ∃ mantissa exponent, (spanNumber (c :: rest)).1 = mantissa ++ exponent ∧ Mantissa mantissa ∧
      Exponent exponent := by
  refine ⟨(c :: rest).takeWhile Char.isDigit ++
    (spanFraction ((c :: rest).dropWhile Char.isDigit)).1, _, rfl, ?_, exponent_of_spanExponent _⟩
  have hdigits := isDigit_of_mem_takeWhile (c :: rest)
  by_cases hc : c.isDigit = true
  · have hne : (c :: rest).takeWhile Char.isDigit ≠ [] := by simp [hc]
    unfold spanFraction
    split
    · next decimals _ => exact .pointed hne hdigits (isDigit_of_mem_takeWhile decimals)
    · rw [List.append_nil]
      exact .whole hne hdigits
  · obtain ⟨rfl, hpoint⟩ : c = '.' ∧ (rest.head?.map Char.isDigit).getD false = true := by
      simpa [startsNumber, hc] using h
    cases rest with
    | nil => cases hpoint
    | cons d rest =>
      have hd : d.isDigit = true := hpoint
      have hfraction : Mantissa ('.' :: (d :: rest).takeWhile Char.isDigit) :=
        .fraction (by simp [hd]) (isDigit_of_mem_takeWhile _)
      simpa [spanFraction, hc] using hfraction

theorem scanQuoted_eq_some {quote : Char} {value covered : List Char}
    (h : scanQuoted quote cs = some (value, covered, rest)) :
    covered = doubled quote value ++ [quote] ∧ cs = doubled quote value ++ quote :: rest ∧
      rest.head? ≠ some quote := by
  rcases exists_doubled quote cs with ⟨value', rfl⟩ | ⟨value', rest', rfl, hrest⟩
  · cases (scanQuoted_doubled_open quote value').symm.trans h
  · cases (scanQuoted_doubled value' hrest).symm.trans h
    exact ⟨rfl, rfl, hrest⟩

theorem written_of_wordKind {word : List Char} (hc : startsName c = true)
    (hword : ∀ d ∈ word, continuesName d = true) : Written (c :: word) (wordKind (c :: word)) := by
  cases hfound : Keyword.ofWord? (c :: word) with
  | some k =>
    rw [wordKind, hfound]
    obtain ⟨before, after, hdictionary, -⟩ := List.lookup_eq_some_iff.1 hfound
    have hmem : (foldKeyword (c :: word), k) ∈ Keyword.dictionary := by
      rw [hdictionary]
      simp
    obtain ⟨k', -, hentry⟩ := List.mem_map.1 hmem
    obtain ⟨hspelling, rfl⟩ := Prod.mk.inj hentry
    exact .keyword hspelling.symm
  | none =>
    rw [wordKind, hfound]
    refine .name hc hword fun k hk => ?_
    have hknown : Keyword.ofWord? (c :: word) ≠ none := by
      rw [Keyword.ofWord?, hk]
      cases k <;> decide +kernel
    exact hknown hfound

theorem written_sign {s : Sign} {covered : List Char} (h : s.spelling.toList = covered) :
    Written covered (.sign s) :=
  h ▸ .sign s

theorem written_of_scanSign (hblank : isBlank c = false) (hquote : c ≠ '\x27' ∧ c ≠ '"')
    (hdigit : c.isDigit = false) (hname : startsName c = false) (rest : List Char) :
    Written (scanSign c rest).covered (scanSign c rest).kind := by
  unfold scanSign
  split
  case h_3 => exact .lessGreater
  case h_15 =>
    -- every sign but `!=` is told from its first character
    refine .unknown ⟨hblank, hquote, hdigit, hname, ?_⟩
    simp_all
  all_goals exact written_sign rfl

/-- A token is written by the characters that it covers. -/
theorem written_of_scanToken {p : Position} {scan : Scan} (hblank : isBlank c = false)
    (h : scanToken p c rest = .ok scan) : Written scan.covered scan.kind := by
  unfold scanToken at h
  split at h
  · next hquote =>
    split at h
    · next value covered rest' hscan =>
      cases h
      obtain ⟨rfl, -, -⟩ := scanQuoted_eq_some hscan
      exact .text value (by simpa using hquote)
    · cases h
  · next hquote =>
    split at h
    · next hnumber =>
      obtain ⟨mantissa, exponent, htaken, hm, he⟩ := exists_mantissa hnumber
      rcases hspan : spanNumber (c :: rest) with ⟨number, left⟩
      rw [hspan] at h htaken
      cases h
      obtain rfl : number = mantissa ++ exponent := htaken
      exact .number hm he
    · next hnumber =>
      split at h
      · next hname =>
        cases h
        exact written_of_wordKind hname fun d hd => List.all_eq_true.1 List.all_takeWhile d hd
      · next hname =>
        cases h
        have hdigit : c.isDigit = false := by
          rw [Bool.eq_false_iff]
          intro hdigit
          simp [startsNumber, hdigit] at hnumber
        exact written_of_scanSign hblank (by simpa [not_or] using hquote) hdigit
          (Bool.eq_false_iff.2 hname) rest

end

/-! ## Texts that begin with a token -/

theorem StartsWith.nextKind {cs rest : List Char} {kind : TokenKind} (h : StartsWith cs kind rest) :
    nextKind cs = some (some (kind, rest)) := by
  obtain ⟨t, q, hnext, rfl⟩ := h .start
  rw [← toOption_nextToken .start, hnext]
  rfl

theorem StartsWith.kindsIn {cs rest : List Char} {kind : TokenKind} (h : StartsWith cs kind rest) :
    kindsIn cs = (kindsIn rest).map (kind :: ·) := by
  rw [kindsIn_eq, h.nextKind, Option.bind_some, kindsAfter]

theorem kindsIn_blank (rest : List Char) : kindsIn (' ' :: rest) = kindsIn rest := by
  rw [← kindsIn_trimLeft, trimLeft_of_blank (by decide), kindsIn_trimLeft]

theorem written_of_nextKind {cs rest : List Char} {kind : TokenKind}
    (h : nextKind cs = some (some (kind, rest))) : ∃ piece, Written piece kind := by
  obtain ⟨left, hgap, hscan⟩ := Option.bind_eq_some_iff.1 h
  cases left with
  | nil => cases hscan
  | cons c after =>
    obtain ⟨scan, hfound, hkind⟩ := Option.map_eq_some_iff.1 hscan
    cases hkind
    exact ⟨scan.covered, written_of_scanToken (isBlank_of_gapRest hgap) (toOption_eq_some.1 hfound)⟩

/-- Every token of a text is written in some way. -/
theorem written_of_kindsIn {cs : List Char} {kinds : List TokenKind} (h : kindsIn cs = some kinds) :
    ∀ kind ∈ kinds, ∃ piece, Written piece kind := by
  induction hlength : cs.length using Nat.strongRecOn generalizing cs kinds with
  | _ n ih =>
    subst hlength
    rw [kindsIn_eq] at h
    obtain ⟨next, hnext, hafter⟩ := Option.bind_eq_some_iff.1 h
    cases next with
    | none =>
      cases hafter
      exact List.forall_mem_nil _
    | some next =>
      obtain ⟨kind, rest⟩ := next
      obtain ⟨others, hothers, rfl⟩ := Option.map_eq_some_iff.1 hafter
      exact List.forall_mem_cons.2 ⟨written_of_nextKind hnext,
        ih _ (length_lt_of_nextKind hnext) hothers rfl⟩

/-! ## Tokens as they are displayed -/

/-- A token does not hold a single quote, which the display would not double. -/
def TokenKind.Unquoted (kind : TokenKind) : Prop :=
  ∀ value, kind = .text value → '\x27' ∉ value.toList

theorem doubled_of_notMem {quote : Char} {value : List Char} (h : quote ∉ value) :
    doubled quote value = value := by
  induction value with
  | nil => rfl
  | cons c value ih =>
    obtain ⟨hc, hvalue⟩ := List.ne_and_not_mem_of_not_mem_cons h
    rw [doubled_cons hc.symm, ih hvalue]

theorem display_text (value : String) :
    (TokenKind.text value).display.toList = '\x27' :: (value.toList ++ ['\x27']) := by
  have hdisplay : (TokenKind.text value).display = "'" ++ value ++ "'" := rfl
  simp [hdisplay]

/-- A token that is written in some way is also written as it is displayed, but for texts with
    quotes. -/
theorem Written.display {piece : List Char} {kind : TokenKind} (h : Written piece kind)
    (hquote : kind.Unquoted) : Written kind.display.toList kind := by
  cases h with
  | @keyword word k => exact .keyword (foldKeyword_of_sameIgnoringCase (beq_self_eq_true _))
  | sign s => exact .sign s
  | lessGreater => exact .sign .ne
  | number hm he =>
    rw [TokenKind.display, String.toList_ofList]
    exact .number hm he
  | text value =>
    have hwritten : Written ('\x27' :: (doubled '\x27' value ++ ['\x27']))
        (.text (String.ofList value)) := .text value (by decide)
    have hvalue := hquote _ rfl
    rw [String.toList_ofList] at hvalue
    rw [doubled_of_notMem hvalue] at hwritten
    rwa [display_text, String.toList_ofList]
  | name hc hword hnone =>
    rw [TokenKind.display, String.toList_ofList]
    exact .name hc hword hnone
  | unknown hc =>
    rw [TokenKind.display, String.toList_singleton]
    exact .unknown hc

/-- What is rendered after a token other than an opening parenthesis ends it. -/
theorem apart_renderAfter {kind : TokenKind} (h : kind.joinsNext = false)
    (kinds : List TokenKind) : Apart (renderAfter kind kinds) := by
  cases kinds with
  | nil => exact apart_nil
  | cons next kinds =>
    rw [renderAfter, h, Bool.false_or]
    cases hjoins : next.joinsPrevious with
    | false => exact apart_cons (by decide)
    | true =>
      obtain rfl | rfl : next = .sign .rightParen ∨ next = .sign .comma := by
        simpa [TokenKind.joinsPrevious] using hjoins
      · exact apart_cons (by decide)
      · exact apart_cons (by decide)

theorem startsWith_display {kind : TokenKind} (h : Written kind.display.toList kind)
    (kinds : List TokenKind) :
    StartsWith (kind.display.toList ++ renderAfter kind kinds) kind (renderAfter kind kinds) := by
  cases hjoins : kind.joinsNext with
  | false => exact h.startsWith (apart_renderAfter hjoins kinds)
  | true =>
    obtain rfl : kind = .sign .leftParen := by simpa [TokenKind.joinsNext] using hjoins
    exact startsWith_delimiter (s := .leftParen) (by decide) _

/-- The space before a rendered token is no token. -/
theorem kindsIn_renderAfter (previous : TokenKind) (kinds : List TokenKind) :
    kindsIn (renderAfter previous kinds) = kindsIn (renderTokens kinds) := by
  cases kinds with
  | nil => rfl
  | cons kind kinds =>
    rw [renderAfter, renderTokens, List.append_assoc]
    split
    · rw [List.nil_append]
    · exact kindsIn_blank _

/-! ## Rendered tokens -/

/-- Rendered tokens lex to these tokens. -/
def ReadsBack (kinds : List TokenKind) : Prop :=
  kindsIn (renderTokens kinds) = some kinds

theorem readsBack_nil : ReadsBack [] := by
  rw [ReadsBack, kindsIn_eq]
  rfl

theorem readsBack_cons {kind : TokenKind} (h : Written kind.display.toList kind)
    (kinds : List TokenKind) : ReadsBack (kind :: kinds) ↔ ReadsBack kinds := by
  have hstarts : kindsIn (renderTokens (kind :: kinds)) =
      (kindsIn (renderTokens kinds)).map (kind :: ·) := by
    rw [renderTokens, (startsWith_display h kinds).kindsIn, kindsIn_renderAfter]
  rw [ReadsBack, hstarts, Option.map_eq_some_iff]
  constructor
  · rintro ⟨others, hothers, hcons⟩
    cases hcons
    exact hothers
  · exact fun hkinds => ⟨kinds, hkinds, rfl⟩

/-- A text whose quotes are not doubled does not read back as itself if it holds one: the quotes
    that it has in excess would have to be doubled again and again. -/
theorem append_quote_ne_doubled {quote : Char} {rest rest' : List Char}
    (hrest : rest.head? ≠ some quote) (value : List Char) (n : Nat) :
    value ++ quote :: rest ≠
      List.replicate (n + 1) quote ++ (doubled quote value ++ quote :: rest') := by
  induction value generalizing n with
  | nil =>
    intro h
    obtain ⟨-, hafter⟩ := List.cons.inj h
    refine hrest ?_
    rw [hafter]
    cases n <;> simp [doubled, List.replicate_succ]
  | cons c value ih =>
    intro h
    obtain ⟨rfl, hafter⟩ := List.cons.inj h
    refine ih (n + 1) ?_
    calc value ++ c :: rest
        = List.replicate n c ++ (doubled c (c :: value) ++ c :: rest') := hafter
      _ = List.replicate (n + 1 + 1) c ++ (doubled c value ++ c :: rest') := by
        simp [doubled, List.replicate_succ']

theorem notMem_of_scanQuoted {quote : Char} {value covered rest rest' : List Char}
    (hrest : rest.head? ≠ some quote)
    (h : scanQuoted quote (value ++ quote :: rest) = some (value, covered, rest')) :
    quote ∉ value := by
  obtain ⟨-, hcs, -⟩ := scanQuoted_eq_some h
  clear h
  induction value with
  | nil => exact List.not_mem_nil
  | cons c value ih =>
    by_cases hc : c = quote
    · subst hc
      have hexcess : value ++ c :: rest =
          List.replicate (0 + 1) c ++ (doubled c value ++ c :: rest') := by
        simpa [doubled] using hcs
      exact absurd hexcess (append_quote_ne_doubled hrest value 0)
    · rw [doubled_cons hc, List.cons_append, List.cons_append] at hcs
      have hvalue := ih (List.cons.inj hcs).2
      simpa [Ne.symm hc] using hvalue

theorem unquoted_of_readsBack {kind : TokenKind} {kinds : List TokenKind}
    (h : ReadsBack (kind :: kinds)) : kind.Unquoted := by
  rintro value rfl
  have hrest : (renderAfter (.text value) kinds).head? ≠ some '\x27' :=
    (apart_renderAfter rfl kinds).head?_ne (by decide)
  rw [ReadsBack, renderTokens, display_text, kindsIn_eq, List.cons_append, List.append_assoc,
    List.singleton_append, nextKind, gapRest_token (by decide) (absurd · (by decide)) (absurd · (by decide)),
    Option.bind_some, scanKind_quote (.inl rfl)] at h
  obtain ⟨next, hnext, hafter⟩ := Option.bind_eq_some_iff.1 h
  obtain ⟨⟨found, covered, rest⟩, hscan, rfl⟩ := Option.map_eq_some_iff.1 hnext
  -- the first token that is read is the first one that was rendered
  obtain ⟨_, -, hcons⟩ := Option.map_eq_some_iff.1 hafter
  have hfound : found = value.toList := by
    have hfirst := TokenKind.text.inj (List.cons.inj hcons).1
    rw [← hfirst, String.toList_ofList]
  rw [hfound] at hscan
  exact notMem_of_scanQuoted hrest hscan

/-- Rendered tokens read back if and only if no text among them holds a single quote. -/
theorem readsBack_iff {kinds : List TokenKind} (h : ∀ kind ∈ kinds, ∃ piece, Written piece kind) :
    ReadsBack kinds ↔ ∀ kind ∈ kinds, kind.Unquoted := by
  induction kinds with
  | nil => exact iff_of_true readsBack_nil (List.forall_mem_nil _)
  | cons kind kinds ih =>
    obtain ⟨⟨piece, hpiece⟩, hkinds⟩ := List.forall_mem_cons.1 h
    rw [List.forall_mem_cons, ← ih hkinds]
    constructor
    · intro hback
      have hquote := unquoted_of_readsBack hback
      exact ⟨hquote, (readsBack_cons (hpiece.display hquote) kinds).1 hback⟩
    · rintro ⟨hquote, hback⟩
      exact (readsBack_cons (hpiece.display hquote) kinds).2 hback

theorem readsBack_iff_lex {kinds : List TokenKind} :
    ReadsBack kinds ↔ ∃ l, lex (renderTokens kinds) = .ok l ∧ kindsOf l.tokens = kinds := by
  simp only [ReadsBack, kindsIn, Option.map_eq_some_iff, toOption_eq_some]

theorem forall_unquoted_iff {kinds : List TokenKind} :
    (∀ kind ∈ kinds, kind.Unquoted) ↔
      ∀ value, .text value ∈ kinds → '\x27' ∉ value.toList := by
  constructor
  · exact fun h value hvalue => h _ hvalue value rfl
  · rintro h _ hkind value rfl
    exact h value hkind

/-- **What is rendered reads back, but for quotes in texts.**  The tokens of a text, and those of a
    WHERE clause that is not understood and echoed, lex to themselves when they are rendered if and
    only if no text among them holds a single quote. -/
theorem lex_renderTokens_iff {text : List Char} {l : Lexed} (h : lex text = .ok l) :
    ((∃ l', lex (renderTokens (kindsOf l.tokens)) = .ok l' ∧
        kindsOf l'.tokens = kindsOf l.tokens) ↔
      ∀ value, .text value ∈ kindsOf l.tokens → '\x27' ∉ value.toList) ∧
    ∀ statement echo, parse text = .ok statement →
      statement.condition = some (.unsupported echo) →
      ∃ head clause rest, HasWhere l.tokens head clause rest ∧
        echo.toList = renderTokens (kindsOf clause) ∧
        (SqlError.unsupportedPredicate echo).message = "unsupported predicate: " ++ echo ∧
        ((∃ l', lex echo.toList = .ok l' ∧ kindsOf l'.tokens = kindsOf clause) ↔
          ∀ value, .text value ∈ kindsOf clause → '\x27' ∉ value.toList) := by
  have hkinds : kindsIn text = some (kindsOf l.tokens) := by
    rw [kindsIn, h]
    rfl
  have hwritten := written_of_kindsIn hkinds
  refine ⟨?_, fun statement echo hparse hp => ?_⟩
  · rw [← readsBack_iff_lex, readsBack_iff hwritten, forall_unquoted_iff]
  · obtain ⟨l', hlex, htokens⟩ := parse_eq_ok.1 hparse
    obtain rfl : l = l' := Except.ok.inj (h.symm.trans hlex)
    obtain ⟨head, clause, rest, hclause, hpredicate, -⟩ := parseTokens_removes htokens hp
    have hecho : echo.toList = renderTokens (kindsOf clause) := by
      rw [clausePredicate_eq_unsupported hpredicate.symm, String.toList_ofList]
    have hpart : ∀ kind ∈ kindsOf clause, ∃ piece, Written piece kind := by
      obtain ⟨place, hsplit⟩ := hclause.tokens_eq
      intro kind hkind
      refine hwritten kind ?_
      rw [hsplit, kindsOf_append]
      exact List.mem_append_right _ (List.mem_cons_of_mem _
        (by rw [List.map_append]; exact List.mem_append_left _ hkind))
    refine ⟨head, clause, rest, hclause, hecho, rfl, ?_⟩
    rw [hecho, ← readsBack_iff_lex, readsBack_iff hpart, forall_unquoted_iff]

/-- A sign is rendered in its other spelling, a text in other quotes, and a comment not at all. -/
theorem lex_renderTokens_iff_respelled :
    ∃ l, lex "a<>(-1.e5 ,\"x y\") -- 'z\n ~ kEY".toList = .ok l ∧
      kindsOf l.tokens = [.name "a", .sign .ne, .sign .leftParen, .sign .minus, .number "1.e5",
        .sign .comma, .text "x y", .sign .rightParen, .unknown '~', .keyword .key] ∧
      renderTokens (kindsOf l.tokens) = "a != (- 1.e5, 'x y') ~ KEY".toList ∧
      ∃ l', lex (renderTokens (kindsOf l.tokens)) = .ok l' ∧
        kindsOf l'.tokens = kindsOf l.tokens := by
  have hkinds : kindsIn "a<>(-1.e5 ,\"x y\") -- 'z\n ~ kEY".toList = some [.name "a", .sign .ne,
      .sign .leftParen, .sign .minus, .number "1.e5", .sign .comma, .text "x y", .sign .rightParen,
      .unknown '~', .keyword .key] := by decide +kernel
  obtain ⟨l, hlex, htokens⟩ := Option.map_eq_some_iff.1 hkinds
  refine ⟨l, toOption_eq_some.1 hlex, htokens, ?_, ?_⟩
  · rw [htokens]
    decide +kernel
  · refine (lex_renderTokens_iff (toOption_eq_some.1 hlex)).1.2 fun value hvalue => ?_
    obtain rfl : value = "x y" := by simpa [htokens] using hvalue
    decide

/-- A text with a quote is rendered as a text that is not closed; one with two quotes beside one
    another is rendered as a text with a single quote. -/
theorem rendered_quotes_differ :
    let text := "SELECT a FROM t WHERE a LIKE 'it''s'".toList
    (parse text).toOption = some (.select
      ⟨.columns ["a"], "t", some (.unsupported "a LIKE 'it's'"), [], none, none⟩) ∧
    kindsIn text = some [.keyword .select, .name "a", .keyword .from_, .name "t",
      .keyword .where_, .name "a", .name "LIKE", .text "it's"] ∧
    kindsIn (renderTokens [.keyword .select, .name "a", .keyword .from_, .name "t",
      .keyword .where_, .name "a", .name "LIKE", .text "it's"]) = none ∧
    kindsIn "a LIKE 'it's'".toList = none ∧
    kindsIn "'a''''b'".toList = some [.text "a''b"] ∧
    kindsIn (renderTokens [.text "a''b"]) = some [.text "a'b"] := by
  decide +kernel

end PocketSql
