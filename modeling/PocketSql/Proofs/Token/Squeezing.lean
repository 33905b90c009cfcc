/-
  Texts without blanks around their newlines.

  * `press` puts a character before a text; it drops a blank before a newline and the blanks after
    one.  `squeeze` does so over a text, `entered` over a text and a newline after it;
  * `Unbroken`: a text has no newline beside another blank; `squeeze_eq_self_iff`: those texts stay;
  * `gapRest_entered`, `scanKind_entered`: gaps and tokens of an entered text, by those of the text;
  * `kindsIn_entered`: an entered text has the tokens of the text, with every quoted text squeezed.
-/
import PocketSql.Proofs.Token.Kinds
import PocketSql.Proofs.Token.Trimming
import Mathlib.Data.List.Chain

namespace PocketSql

/-! ## Texts -/

/-- A character before a text, without a blank before a newline or blanks after one. -/
def press (c : Char) (rest : List Char) : List Char :=
  if c = '\n' then '\n' :: trimLeft rest
  else if isBlank c = true ∧ rest.head? = some '\n' then rest
  else c :: rest

/-- A text without blanks around its newlines. -/
def squeeze (cs : List Char) : List Char :=
  cs.foldr press []

/-- A text and a newline after it, without blanks around newlines. -/
def entered (cs : List Char) : List Char :=
  cs.foldr press ['\n']

@[simp] theorem squeeze_nil : squeeze [] = [] := rfl

@[simp] theorem squeeze_cons (c : Char) (cs : List Char) :
    squeeze (c :: cs) = press c (squeeze cs) := rfl

@[simp] theorem entered_nil : entered [] = ['\n'] := rfl

@[simp] theorem entered_cons (c : Char) (cs : List Char) :
    entered (c :: cs) = press c (entered cs) := rfl

theorem entered_append (cs ds : List Char) :
    entered (cs ++ ds) = cs.foldr press (entered ds) :=
  List.foldr_append

section
variable {c d quote : Char} {cs rest : List Char}

theorem press_newline (rest : List Char) : press '\n' rest = '\n' :: trimLeft rest := rfl

theorem ne_newline (h : isBlank c = false) : c ≠ '\n' := by
  rintro rfl
  cases h

theorem press_of_plain (h : isBlank c = false) (rest : List Char) : press c rest = c :: rest := by
  simp [press, ne_newline h, h]

/-- A blank that is pressed stays or is dropped before a newline. -/
theorem press_of_blank (hc : c ≠ '\n') (h : isBlank c = true) (rest : List Char) :
    press c rest = rest ∧ rest.head? = some '\n' ∨ press c rest = c :: rest := by
  by_cases hrest : rest.head? = some '\n'
  · exact .inl ⟨by simp [press, hc, h, hrest], hrest⟩
  · exact .inr (by simp [press, hc, hrest])

theorem trimLeft_press (h : isBlank c = true) (rest : List Char) :
    trimLeft (press c rest) = trimLeft rest := by
  by_cases hc : c = '\n'
  · subst hc
    rw [press_newline, trimLeft_of_blank h, trimLeft_trimLeft]
  · rcases press_of_blank hc h rest with ⟨hpress, -⟩ | hpress
    · rw [hpress]
    · rw [hpress, trimLeft_of_blank h]

/-- A pressed blank is a blank at the start. -/
theorem parted_press (h : isBlank c = true) (rest : List Char) : Parted (press c rest) := by
  by_cases hc : c = '\n'
  · subst hc
    exact parted_cons h
  · rcases press_of_blank hc h rest with ⟨hpress, hrest⟩ | hpress
    · rw [hpress]
      rintro d hd
      cases hrest.symm.trans hd
      decide
    · rw [hpress]
      exact parted_cons h

theorem parted_entered (h : Parted cs) : Parted (entered cs) := by
  rcases h.eq_nil_or with rfl | ⟨c, others, rfl, hc⟩
  · exact parted_cons (by decide)
  · exact parted_press hc _

theorem entered_cons_of_plain (h : isBlank c = false) (cs : List Char) :
    entered (c :: cs) = c :: entered cs :=
  press_of_plain h _

/-- Where no blank stands, the text stays. -/
theorem entered_of_plain (h : ∀ c ∈ cs, isBlank c = false) (rest : List Char) :
    entered (cs ++ rest) = cs ++ entered rest := by
  induction cs with
  | nil => rfl
  | cons c cs ih =>
    obtain ⟨hc, hcs⟩ := List.forall_mem_cons.1 h
    rw [List.cons_append, entered_cons_of_plain hc, ih hcs, List.cons_append]

theorem head?_entered (hd : isBlank d = false) :
    (entered cs).head? = some d ↔ cs.head? = some d := by
  cases cs with
  | nil => exact iff_of_false ((parted_entered parted_nil).head?_ne hd) nofun
  | cons c cs =>
    by_cases hc : isBlank c = true
    · exact iff_of_false ((parted_press hc _).head?_ne hd) ((parted_cons hc).head?_ne hd)
    · rw [entered_cons_of_plain (Bool.eq_false_iff.2 hc), List.head?_cons, List.head?_cons]

/-! ## Gaps -/

section
variable {gap : Gap}

/-- A blank is passed over, unless a comment up to the end of its line goes on with it. -/
theorem gapRest_of_blank (hgap : gap ≠ .lineComment) (hc : isBlank c = true) (rest : List Char) :
    gapRest gap (c :: rest) = gapRest gap rest := by
  cases gap with
  | blank => exact gapRest_blank hc
  | lineComment => exact absurd rfl hgap
  | blockComment => exact gapRest_blockComment (absurd · (ne_of_holds hc (by decide)))

theorem gapRest_trimLeft (hgap : gap ≠ .lineComment) (cs : List Char) :
    gapRest gap (trimLeft cs) = gapRest gap cs := by
  induction cs with
  | nil => rfl
  | cons c cs ih =>
    by_cases hc : isBlank c = true
    · rw [trimLeft_of_blank hc, gapRest_of_blank hgap hc, ih]
    · rw [trimLeft_of_plain (Bool.eq_false_iff.2 hc)]

theorem gapRest_press (hgap : gap ≠ .lineComment) (hc : isBlank c = true) (rest : List Char) :
    gapRest gap (press c rest) = gapRest gap rest := by
  rw [← gapRest_trimLeft hgap, trimLeft_press hc, gapRest_trimLeft hgap]

end

theorem gapRest_lineComment_press (hc : c ≠ '\n') (rest : List Char) :
    gapRest .lineComment (press c rest) = gapRest .lineComment rest := by
  have hcons : gapRest .lineComment (c :: rest) = gapRest .lineComment rest := by
    rw [gapRest_lineComment, if_neg hc]
  by_cases hblank : isBlank c = true
  · rcases press_of_blank hc hblank rest with ⟨hpress, -⟩ | hpress
    · rw [hpress]
    · rw [hpress, hcons]
  · rw [press_of_plain (Bool.eq_false_iff.2 hblank), hcons]

/-- What is left of an entered text after a gap: nothing, or what is left of the text, entered. -/
def enteredRest : List Char → List Char
  | [] => []
  | c :: rest => entered (c :: rest)

theorem head?_ne_of_forall (h : ∀ others, rest = d :: others → False) : rest.head? ≠ some d := by
  intro hrest
  obtain ⟨others, rfl⟩ := List.head?_eq_some_iff.1 hrest
  exact h others rfl

/-- The gaps of an entered text are those of the text. -/
theorem gapRest_entered (gap : Gap) (cs : List Char) :
    gapRest gap (entered cs) = (gapRest gap cs).map enteredRest := by
  have hgap : Gap.blank ≠ .lineComment := nofun
  have hgap' : Gap.blockComment ≠ .lineComment := nofun
  have hdash : isBlank '-' = false := by decide
  have hslash : isBlank '/' = false := by decide
  have hstar : isBlank '*' = false := by decide
  fun_induction skipGap gap .start cs with
  | case1 | case2 | case3 => rfl
  | case4 p rest ih =>
    rw [entered_cons_of_plain hdash, entered_cons_of_plain hdash, gapRest_dashes, gapRest_dashes,
      ih]
  | case5 p rest ih =>
    rw [entered_cons_of_plain hslash, entered_cons_of_plain hstar, gapRest_opened, gapRest_opened,
      ih]
  | case6 p c rest _ _ hblank ih =>
    rw [entered_cons, gapRest_press hgap hblank, gapRest_blank hblank, ih]
  | case7 p c rest hminus hopen hblank =>
    have hblank := Bool.eq_false_iff.2 hblank
    have hminus : c = '-' → rest.head? ≠ some '-' := fun hc =>
      head?_ne_of_forall fun others => hminus others hc
    have hopen : c = '/' → rest.head? ≠ some '*' := fun hc =>
      head?_ne_of_forall fun others => hopen others hc
    rw [gapRest_token hblank hminus hopen, Option.map_some, enteredRest,
      entered_cons_of_plain hblank]
    refine gapRest_token hblank (fun hc => ?_) (fun hc => ?_)
    · exact (head?_entered hdash).not.2 (hminus hc)
    · exact (head?_entered hstar).not.2 (hopen hc)
  | case8 p rest ih =>
    rw [entered_cons, press_newline, gapRest_lineComment, if_pos rfl, gapRest_lineComment,
      if_pos rfl, gapRest_trimLeft hgap, ih]
  | case9 p c rest hc ih =>
    rw [entered_cons, gapRest_lineComment_press hc, ih, gapRest_lineComment, if_neg hc]
  | case10 p rest ih =>
    rw [entered_cons_of_plain hstar, entered_cons_of_plain hslash, gapRest_closed, gapRest_closed,
      ih]
  | case11 p c rest hclose ih =>
    have hclose : c = '*' → rest.head? ≠ some '/' := fun hc =>
      head?_ne_of_forall fun others => hclose others hc
    rw [gapRest_blockComment hclose, ← ih]
    by_cases hblank : isBlank c = true
    · rw [entered_cons, gapRest_press hgap' hblank]
    · rw [entered_cons_of_plain (Bool.eq_false_iff.2 hblank), gapRest_blockComment]
      exact fun hc => (head?_entered hslash).not.2 (hclose hc)

/-! ## Quoted texts -/

/-- A quoted text that is not closed is none. -/
theorem scanQuoted_doubled_open (quote : Char) (value : List Char) :
    scanQuoted quote (doubled quote value) = none := by
  induction value with
  | nil => rfl
  | cons c value ih =>
    by_cases hc : c = quote
    · subst hc
      simp [doubled, scanQuoted, ih]
    · simp [doubled, hc, scanQuoted_of_ne hc, ih]

/-- Up to its first quote that is not doubled, or as a whole, a text is one whose quotes are
    doubled. -/
theorem exists_doubled (quote : Char) (cs : List Char) :
    (∃ value, cs = doubled quote value) ∨
      ∃ value rest, cs = doubled quote value ++ quote :: rest ∧ rest.head? ≠ some quote := by
  fun_induction scanQuoted quote cs with
  | case1 => exact .inl ⟨[], rfl⟩
  | case2 => exact .inr ⟨[], [], rfl, by simp⟩
  | case3 c hc => exact .inl ⟨[c], by simp [doubled, hc]⟩
  | case4 rest ih =>
    rcases ih with ⟨value, rfl⟩ | ⟨value, after, rfl, hafter⟩
    · exact .inl ⟨quote :: value, by simp [doubled]⟩
    · exact .inr ⟨quote :: value, after, by simp [doubled], hafter⟩
  | case5 d rest hd => exact .inr ⟨[], d :: rest, rfl, by simpa using hd⟩
  | case6 c d rest hc ih =>
    rcases ih with ⟨value, hvalue⟩ | ⟨value, after, hvalue, hafter⟩
    · exact .inl ⟨c :: value, by simp [doubled, hc, hvalue]⟩
    · exact .inr ⟨c :: value, after, by simp [doubled, hc, hvalue], hafter⟩

theorem doubled_cons (hc : c ≠ quote) (cs : List Char) :
    doubled quote (c :: cs) = c :: doubled quote cs :=
  if_neg hc

theorem trimLeft_doubled (hquote : isBlank quote = false) (cs : List Char) :
    trimLeft (doubled quote cs) = doubled quote (trimLeft cs) := by
  induction cs with
  | nil => rfl
  | cons c cs ih =>
    by_cases hc : isBlank c = true
    · rw [doubled_cons (ne_of_holds hc hquote), trimLeft_of_blank hc, trimLeft_of_blank hc, ih]
    · have hc := Bool.eq_false_iff.2 hc
      rw [trimLeft_of_plain hc, doubled]
      split <;> exact trimLeft_of_plain hc _

theorem head?_doubled (quote : Char) (cs : List Char) : (doubled quote cs).head? = cs.head? := by
  cases cs with
  | nil => rfl
  | cons c cs =>
    rw [doubled]
    split <;> rfl

theorem press_doubled (hquote : isBlank quote = false) (hc : c ≠ quote)
    (cs : List Char) : press c (doubled quote cs) = doubled quote (press c cs) := by
  unfold press
  rw [head?_doubled, trimLeft_doubled hquote, ← doubled_cons hc]
  split
  · next hnewline => rw [doubled_cons (hnewline ▸ hc)]
  · split <;> rfl

theorem foldr_press_doubled (hquote : isBlank quote = false) (cs rest : List Char) :
    (doubled quote cs).foldr press (doubled quote rest) = doubled quote (cs.foldr press rest) := by
  induction cs with
  | nil => rfl
  | cons c cs ih =>
    by_cases hc : c = quote
    · subst hc
      simp [doubled, ih, press_of_plain hquote]
    · simp [doubled, hc, ih, press_doubled hquote hc]

theorem trimLeft_append_plain (hd : isBlank d = false) (cs rest : List Char) :
    trimLeft (cs ++ d :: rest) = trimLeft cs ++ d :: rest := by
  induction cs with
  | nil => exact trimLeft_of_plain hd rest
  | cons c cs ih =>
    by_cases hc : isBlank c = true
    · rw [List.cons_append, trimLeft_of_blank hc, trimLeft_of_blank hc, ih]
    · have hc := Bool.eq_false_iff.2 hc
      rw [List.cons_append, trimLeft_of_plain hc, trimLeft_of_plain hc, List.cons_append]

theorem press_append_plain (hd : isBlank d = false) (c : Char) (cs rest : List Char) :
    press c (cs ++ d :: rest) = press c cs ++ d :: rest := by
  have hhead : (cs ++ d :: rest).head? = some '\n' ↔ cs.head? = some '\n' := by
    cases cs <;> simp [ne_newline hd]
  simp only [press, hhead, trimLeft_append_plain hd]
  split
  · rfl
  · split <;> rfl

theorem foldr_press_plain (hd : isBlank d = false) (cs rest : List Char) :
    cs.foldr press (d :: rest) = squeeze cs ++ d :: rest := by
  induction cs with
  | nil => rfl
  | cons c cs ih => rw [List.foldr_cons, ih, press_append_plain hd, squeeze_cons]

theorem entered_doubled (hquote : isBlank quote = false) (value rest : List Char) :
    entered (doubled quote value ++ quote :: rest) =
      doubled quote (squeeze value) ++ quote :: entered rest := by
  have hvalue := foldr_press_doubled hquote value []
  rw [entered_append, entered_cons_of_plain hquote, foldr_press_plain hquote]
  exact congrArg (· ++ _) hvalue

theorem entered_doubled_open (hquote : isBlank quote = false) (value : List Char) :
    entered (doubled quote value) = doubled quote (entered value) := by
  have hnewline : doubled quote ['\n'] = ['\n'] := by
    rw [doubled_cons, doubled]
    rintro rfl
    cases hquote
  have hvalue := foldr_press_doubled hquote value ['\n']
  rwa [hnewline] at hvalue

/-! ## Tokens -/

/-- A token with its text squeezed, if it is a quoted text. -/
def TokenKind.squeezed : TokenKind → TokenKind
  | text value => text (String.ofList (squeeze value.toList))
  | kind => kind

/-- Only the kind of a quoted text is a text. -/
theorem squeezed_scanToken {p : Position} {scan : Scan} (hsingle : c ≠ '\x27') (hdouble : c ≠ '"')
    (h : scanToken p c rest = .ok scan) : scan.kind.squeezed = scan.kind := by
  unfold scanToken at h
  split at h
  · next hquote => simp [hsingle, hdouble] at hquote
  · split at h
    · cases h
      rfl
    · split at h
      · cases h
        unfold wordKind
        split <;> rfl
      · cases h
        unfold scanSign
        split <;> rfl

/-- A token with its text squeezed, before the text after it, which is entered. -/
def enteredNext (next : TokenKind × List Char) : TokenKind × List Char :=
  (next.1.squeezed, entered next.2)

theorem scanKind_quote (hquote : quote = '\x27' ∨ quote = '"') (cs : List Char) :
    scanKind (quote :: cs) = (scanQuoted quote cs).map fun scanned =>
      some (.text (String.ofList scanned.1), scanned.2.2) := by
  have hquote : (quote = '\x27' || quote = '"') = true := by simpa using hquote
  rw [scanKind, scanToken, if_pos hquote]
  cases scanQuoted quote cs <;> rfl

theorem scanKind_quoted (hquote : quote = '\x27' ∨ quote = '"') (cs : List Char) :
    scanKind (quote :: entered cs) = (scanKind (quote :: cs)).map (Option.map enteredNext) := by
  have hplain : isBlank quote = false := by rcases hquote with rfl | rfl <;> decide
  rw [scanKind_quote hquote, scanKind_quote hquote]
  rcases exists_doubled quote cs with ⟨value, rfl⟩ | ⟨value, rest, rfl, hrest⟩
  · rw [entered_doubled_open hplain, scanQuoted_doubled_open, scanQuoted_doubled_open]
    rfl
  · have hrest' := (head?_entered hplain).not.2 hrest
    rw [entered_doubled hplain, scanQuoted_doubled _ hrest', scanQuoted_doubled _ hrest]
    simp [enteredNext, TokenKind.squeezed]

/-- The first token of an entered text is that of the text. -/
theorem scanKind_entered (hc : isBlank c = false) (cs : List Char) :
    scanKind (entered (c :: cs)) = (scanKind (c :: cs)).map (Option.map enteredNext) := by
  rw [entered_cons_of_plain hc]
  by_cases hquote : c = '\x27' ∨ c = '"'
  · exact scanKind_quoted hquote cs
  · obtain ⟨hsingle, hdouble⟩ := not_or.1 hquote
    -- the token ends before the first blank
    obtain ⟨word, after, rfl, hword, hafter⟩ := exists_parted cs
    obtain ⟨scan, hscan⟩ := exists_scan hsingle hdouble word
    have hkind := squeezed_scanToken hsingle hdouble (hscan .start after hafter.apart)
    have hleft : ∀ d ∈ scan.rest, isBlank d = false := by
      intro d hd
      obtain ⟨hcover, -⟩ := scanToken_spec (hscan .start [] apart_nil)
      rw [List.append_nil, List.append_nil] at hcover
      rcases List.mem_cons.1 (hcover ▸ List.mem_append_right _ hd) with rfl | hmem
      · exact hc
      · exact hword d hmem
    rw [entered_of_plain hword, scanKind, hscan _ _ (parted_entered hafter).apart, scanKind,
      hscan _ _ hafter.apart]
    simp [Except.toOption, enteredNext, hkind, entered_of_plain hleft]

/-- The next token of an entered text is that of the text. -/
theorem nextKind_entered (cs : List Char) :
    nextKind (entered cs) = (nextKind cs).map (Option.map enteredNext) := by
  rw [nextKind, nextKind, gapRest_entered]
  cases hrest : gapRest .blank cs with
  | none => rfl
  | some rest =>
    cases rest with
    | nil => rfl
    | cons c rest => exact scanKind_entered (isBlank_of_gapRest hrest) rest

/-- **Blanks around newlines only matter in quoted texts.**  An entered text has the tokens of the
    text, with every quoted text squeezed. -/
theorem kindsIn_entered (cs : List Char) :
    kindsIn (entered cs) = (kindsIn cs).map (List.map TokenKind.squeezed) := by
  induction hlength : cs.length using Nat.strongRecOn generalizing cs with
  | _ n ih =>
    subst hlength
    rw [kindsIn_eq, nextKind_entered, kindsIn_eq cs]
    cases hnext : nextKind cs with
    | none => rfl
    | some next =>
      cases next with
      | none => rfl
      | some next =>
        obtain ⟨kind, rest⟩ := next
        have hrest := ih _ (length_lt_of_nextKind hnext) rest rfl
        simp only [Option.map_some, Option.bind_some, kindsAfter, enteredNext, hrest]
        cases kindsIn rest <;> rfl

theorem kindsIn_trimLeft (cs : List Char) : kindsIn (trimLeft cs) = kindsIn cs := by
  have hgap : Gap.blank ≠ .lineComment := nofun
  rw [kindsIn_eq, kindsIn_eq cs, nextKind, nextKind, gapRest_trimLeft hgap]

/-! ## Texts that stay -/

theorem press_sublist (c : Char) (cs : List Char) : List.Sublist (press c cs) (c :: cs) := by
  unfold press
  split
  · next hc => exact hc ▸ (List.dropWhile_sublist isBlank).cons_cons _
  · split
    · exact List.sublist_cons_self c cs
    · exact .refl _

theorem squeeze_sublist (cs : List Char) : List.Sublist (squeeze cs) cs := by
  induction cs with
  | nil => exact .slnil
  | cons c cs ih => exact (press_sublist c _).trans (ih.cons_cons c)

/-- No newline stands beside another blank. -/
def Unbroken (cs : List Char) : Prop :=
  cs.IsChain fun c d => isBlank c = true → isBlank d = true → c ≠ '\n' ∧ d ≠ '\n'

theorem trimLeft_eq_cons_iff : trimLeft (d :: cs) = d :: cs ↔ isBlank d = false := by
  by_cases hd : isBlank d = true
  · have hlength := (List.dropWhile_sublist isBlank (l := cs)).length_le
    rw [trimLeft_of_blank hd, hd]
    refine ⟨fun h => ?_, nofun⟩
    have hlength' := congrArg List.length h
    rw [List.length_cons] at hlength'
    exact absurd hlength (by rw [← trimLeft]; omega)
  · have hd := Bool.eq_false_iff.2 hd
    exact ⟨fun _ => hd, fun _ => trimLeft_of_plain hd cs⟩

theorem press_eq_cons_iff : press c cs = c :: cs ↔
    ∀ d ∈ cs.head?, isBlank c = true → isBlank d = true → c ≠ '\n' ∧ d ≠ '\n' := by
  have hnewline : isBlank '\n' = true := by decide
  unfold press
  split
  · next hc =>
    subst hc
    cases cs with
    | nil => simp [trimLeft]
    | cons d cs => simp [trimLeft_eq_cons_iff, hnewline]
  · next hc =>
    split
    · next hdropped =>
      refine ⟨fun h => absurd h.symm (List.cons_ne_self c cs), fun h => ?_⟩
      exact absurd rfl (h '\n' hdropped.2 hdropped.1 hnewline).2
    · next hkept =>
      refine ⟨fun _ d hd hblank _ => ⟨hc, ?_⟩, fun _ => rfl⟩
      rintro rfl
      exact hkept ⟨hblank, hd⟩

theorem squeeze_eq_self_iff : squeeze cs = cs ↔ Unbroken cs := by
  induction cs with
  | nil => exact ⟨fun _ => .nil, fun _ => rfl⟩
  | cons c cs ih =>
    rw [Unbroken, List.isChain_cons, ← press_eq_cons_iff, ← Unbroken, ← ih, squeeze_cons]
    constructor
    · intro h
      have hpress := (press_sublist c (squeeze cs)).length_le
      have hsqueeze := (squeeze_sublist cs).length_le
      rw [h, List.length_cons, List.length_cons] at hpress
      have hcs : squeeze cs = cs := (squeeze_sublist cs).eq_of_length (by omega)
      rw [hcs] at h
      exact ⟨h, hcs⟩
    · rintro ⟨h, hcs⟩
      rw [hcs, h]

theorem squeezed_eq_self_iff {kind : TokenKind} :
    kind.squeezed = kind ↔ ∀ value, kind = .text value → Unbroken value.toList := by
  cases kind with
  | text value =>
    have hvalue : String.ofList (squeeze value.toList) = value ↔
        squeeze value.toList = value.toList := by rw [← String.toList_inj, String.toList_ofList]
    simp [TokenKind.squeezed, hvalue, squeeze_eq_self_iff]
  | _ => simp [TokenKind.squeezed]

theorem kindsIn_entered_eq_iff :
    kindsIn (entered cs) = kindsIn cs ↔
      ∀ kinds, kindsIn cs = some kinds → ∀ value, .text value ∈ kinds → Unbroken value.toList := by
  rw [kindsIn_entered]
  cases kindsIn cs with
  | none => simp
  | some kinds =>
    have hmap : kinds.map TokenKind.squeezed = kinds ↔
        ∀ kind ∈ kinds, kind.squeezed = kind :=
      ⟨fun h => List.map_inj_left.1 (h.trans (List.map_id kinds).symm),
        fun h => (List.map_congr_left h).trans (List.map_id kinds)⟩
    simp only [Option.map_some, Option.some.injEq, hmap, squeezed_eq_self_iff]
    constructor
    · rintro h _ rfl value hvalue
      exact h _ hvalue value rfl
    · rintro h kind hkind value rfl
      exact h kinds rfl value hkind

end

end PocketSql
