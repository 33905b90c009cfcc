/-
  A blank, a parenthesis, a comma and a semicolon end every token but a quoted text.

  * `Parted`: a text that is empty or begins with a blank; `Apart`: one that is empty or begins with
    a character that ends tokens; `takeWhile_apart`: what is taken from the start of a text does not
    reach into one;
  * `exists_scan`: so the token at the start of a text, unless it is quoted, does not depend on what
    stands after the first of these characters;
  * `scanToken_apart`, `startsWith_apart`: a token that covers a whole text is what the text begins
    with before a character that ends tokens.
-/
import PocketSql.Proofs.Token.Spelling

namespace PocketSql

/-- A text that is empty or begins with a blank. -/
def Parted (rest : List Char) : Prop :=
  ∀ c ∈ rest.head?, isBlank c = true

section
variable {c : Char} {cs rest : List Char}

theorem parted_nil : Parted [] := nofun

theorem parted_cons (h : isBlank c = true) : Parted (c :: rest) := by
  rintro _ ⟨⟩
  exact h

theorem Parted.head?_ne (h : Parted rest) (hc : isBlank c = false) : rest.head? ≠ some c := by
  intro hrest
  cases hc.symm.trans (h c hrest)

theorem Parted.eq_nil_or (h : Parted rest) :
    rest = [] ∨ ∃ c others, rest = c :: others ∧ isBlank c = true := by
  cases rest with
  | nil => exact .inl rfl
  | cons c others => exact .inr ⟨c, others, rfl, h c rfl⟩

/-- A text begins with characters that are not blank, and then it ends or with a blank. -/
theorem exists_parted (cs : List Char) :
    ∃ word rest, cs = word ++ rest ∧ (∀ d ∈ word, isBlank d = false) ∧ Parted rest := by
  induction cs with
  | nil => exact ⟨[], [], rfl, nofun, parted_nil⟩
  | cons c cs ih =>
    by_cases hc : isBlank c = true
    · exact ⟨[], c :: cs, rfl, nofun, parted_cons hc⟩
    · obtain ⟨word, rest, rfl, hword, hrest⟩ := ih
      exact ⟨c :: word, rest, rfl, List.forall_mem_cons.2 ⟨Bool.eq_false_iff.2 hc, hword⟩, hrest⟩

/-- No token but a quoted text goes on with this character. -/
def endsToken (c : Char) : Bool :=
  isBlank c || isBreak c

/-- A text that is empty or begins with a character that ends tokens. -/
def Apart (rest : List Char) : Prop :=
  ∀ c ∈ rest.head?, endsToken c = true

theorem apart_nil : Apart [] := nofun

theorem apart_cons (h : endsToken c = true) : Apart (c :: rest) := by
  rintro _ ⟨⟩
  exact h

theorem Parted.apart (h : Parted rest) : Apart rest := by
  intro c hc
  rw [endsToken, h c hc, Bool.true_or]

theorem Apart.head?_ne (h : Apart rest) (hc : endsToken c = false) : rest.head? ≠ some c := by
  intro hrest
  cases hc.symm.trans (h c hrest)

theorem Apart.eq_nil_or (h : Apart rest) :
    rest = [] ∨ ∃ c others, rest = c :: others ∧ endsToken c = true := by
  cases rest with
  | nil => exact .inl rfl
  | cons c others => exact .inr ⟨c, others, rfl, h c rfl⟩

theorem endsToken_of_continuesName (h : continuesName c = true) : endsToken c = false := by
  rw [endsToken, isBlank_of_continuesName h, Bool.false_or, Bool.eq_false_iff]
  intro hbreak
  cases h.symm.trans (continuesName_of_isBreak hbreak)

theorem endsToken_of_isDigit (h : c.isDigit = true) : endsToken c = false := by
  rw [endsToken, isBlank_of_isDigit h, Bool.false_or, Bool.eq_false_iff]
  intro hbreak
  rcases isBreak_iff.1 hbreak with rfl | rfl | rfl | rfl | rfl <;> cases h

theorem takeWhile_apart {p : Char → Bool} (hp : ∀ c, p c = true → endsToken c = false)
    (h : Apart rest) (cs : List Char) :
    (cs ++ rest).takeWhile p = cs.takeWhile p ∧
      (cs ++ rest).dropWhile p = cs.dropWhile p ++ rest := by
  induction cs with
  | nil =>
    rcases h.eq_nil_or with rfl | ⟨c, others, rfl, hc⟩
    · exact ⟨rfl, rfl⟩
    · have hpc : p c = false := Bool.eq_false_iff.2 fun hpc => by cases hc.symm.trans (hp c hpc)
      simp [hpc]
  | cons c cs ih =>
    by_cases hpc : p c = true
    · simp [hpc, ih]
    · simp [hpc]

/-! ## Tokens -/

theorem spanFraction_apart (h : Apart rest) (cs : List Char) :
    spanFraction (cs ++ rest) = ((spanFraction cs).1, (spanFraction cs).2 ++ rest) := by
  cases cs with
  | nil =>
    rcases h.eq_nil_or with rfl | ⟨c, others, rfl, hc⟩
    · rfl
    · have hpoint : c ≠ '.' := ne_of_holds hc (by decide)
      simp [spanFraction, hpoint]
  | cons c cs =>
    by_cases hpoint : c = '.'
    · subst hpoint
      simp [spanFraction, takeWhile_apart (fun _ => endsToken_of_isDigit) h cs]
    · simp [spanFraction, hpoint]

theorem spanSign_apart (h : Apart rest) (cs : List Char) :
    spanSign (cs ++ rest) = ((spanSign cs).1, (spanSign cs).2 ++ rest) := by
  cases cs with
  | nil =>
    rcases h.eq_nil_or with rfl | ⟨c, others, rfl, hc⟩
    · rfl
    · have hplus : c ≠ '+' := ne_of_holds hc (by decide)
      have hminus : c ≠ '-' := ne_of_holds hc (by decide)
      simp [spanSign, hplus, hminus]
  | cons c cs =>
    unfold spanSign
    split <;> simp_all

theorem spanExponent_apart (h : Apart rest) (cs : List Char) :
    spanExponent (cs ++ rest) = ((spanExponent cs).1, (spanExponent cs).2 ++ rest) := by
  cases cs with
  | nil =>
    rcases h.eq_nil_or with rfl | ⟨c, others, rfl, hc⟩
    · rfl
    · have hsmall : c ≠ 'e' := ne_of_holds hc (by decide)
      have hcapital : c ≠ 'E' := ne_of_holds hc (by decide)
      simp [spanExponent, hsmall, hcapital]
  | cons c cs =>
    have hdigits := takeWhile_apart (fun _ => endsToken_of_isDigit) h (spanSign cs).2
    simp only [List.cons_append, spanExponent, spanSign_apart h, hdigits]
    split <;> rfl

theorem spanNumber_apart (h : Apart rest) (cs : List Char) :
    spanNumber (cs ++ rest) = ((spanNumber cs).1, (spanNumber cs).2 ++ rest) := by
  simp only [spanNumber, takeWhile_apart (fun _ => endsToken_of_isDigit) h, spanFraction_apart h,
    spanExponent_apart h]

theorem scanSign_apart (h : Apart rest) (c : Char) (cs : List Char) :
    scanSign c (cs ++ rest) = { scanSign c cs with rest := (scanSign c cs).rest ++ rest } := by
  cases cs with
  | nil =>
    rcases h.eq_nil_or with rfl | ⟨d, others, rfl, hd⟩
    · simp
    · have hequals : d ≠ '=' := ne_of_holds hd (by decide)
      have hgreater : d ≠ '>' := ne_of_holds hd (by decide)
      unfold scanSign
      split <;> simp_all
  | cons d cs =>
    unfold scanSign
    split <;> simp_all

/-- A token that is not quoted is found in every text, at every place, and whatever stands after the
    first character that ends tokens. -/
theorem exists_scan (hsingle : c ≠ '\x27') (hdouble : c ≠ '"') (cs : List Char) :
    ∃ scan : Scan, ∀ p rest, Apart rest →
      scanToken p c (cs ++ rest) = .ok { scan with rest := scan.rest ++ rest } := by
  have hnumber {rest : List Char} (h : Apart rest) :
      startsNumber c (cs ++ rest) = startsNumber c cs := by
    cases cs with
    | nil =>
      rcases h.eq_nil_or with rfl | ⟨d, others, rfl, hd⟩
      · rfl
      · have hdigit : d.isDigit = false := Bool.eq_false_iff.2 fun hdigit => by
          cases hd.symm.trans (endsToken_of_isDigit hdigit)
        simp [startsNumber, hdigit]
    | cons d cs => rfl
  by_cases hnum : startsNumber c cs = true
  · refine ⟨⟨.number (String.ofList (spanNumber (c :: cs)).1), (spanNumber (c :: cs)).1,
      (spanNumber (c :: cs)).2⟩, fun p rest h => ?_⟩
    have hspan := spanNumber_apart h (c :: cs)
    rw [List.cons_append] at hspan
    simp [scanToken, hsingle, hdouble, hnumber h, hnum, hspan]
  · by_cases hname : startsName c = true
    · refine ⟨⟨wordKind (c :: cs.takeWhile continuesName), c :: cs.takeWhile continuesName,
        cs.dropWhile continuesName⟩, fun p rest h => ?_⟩
      simp [scanToken, hsingle, hdouble, hnumber h, hnum, hname,
        takeWhile_apart (fun _ => endsToken_of_continuesName) h]
    · refine ⟨scanSign c cs, fun p rest h => ?_⟩
      simp [scanToken, hsingle, hdouble, hnumber h, hnum, hname, scanSign_apart h]

/-! ## Tokens one after the other -/

/-- A comment begins with two characters of which neither ends tokens. -/
theorem skipGap_of_token (hblank : isBlank c = false) (hminus : c = '-' → rest.head? ≠ some '-')
    (hslash : c = '/' → rest.head? ≠ some '*') (p : Position) :
    skipGap .blank p (c :: rest) = .ok (p, c :: rest) := by
  rw [skipGap, if_neg (Bool.eq_false_iff.1 hblank)]
  · rintro rest' rfl rfl
    exact hminus rfl rfl
  · rintro rest' rfl rfl
    exact hslash rfl rfl

/-- A token that is not quoted and covers a whole text covers it before every text that is apart. -/
theorem scanToken_apart {kind : TokenKind} {covered : List Char} (hsingle : c ≠ '\x27')
    (hdouble : c ≠ '"') (halone : scanToken .start c cs = .ok ⟨kind, covered, []⟩)
    (h : Apart rest) (p : Position) : scanToken p c (cs ++ rest) = .ok ⟨kind, covered, rest⟩ := by
  obtain ⟨⟨_, _, left⟩, hscan⟩ := exists_scan hsingle hdouble cs
  have hnil := hscan .start [] apart_nil
  rw [List.append_nil, List.append_nil, halone] at hnil
  cases hnil
  exact hscan p rest h

/-- A text with one token begins with it before every text that is apart. -/
theorem startsWith_apart {kind : TokenKind} {covered : List Char}
    (hblank : isBlank c = false) (hminus : c = '-' → cs = []) (hslash : c = '/' → cs = [])
    (hscan : ∀ p, scanToken p c (cs ++ rest) = .ok ⟨kind, covered, rest⟩) (h : Apart rest) :
    StartsWith (c :: (cs ++ rest)) kind rest := by
  refine startsWith_token covered (skipGap_of_token hblank ?_ ?_) hscan
  · rintro rfl
    rw [hminus rfl]
    exact h.head?_ne (by decide)
  · rintro rfl
    rw [hslash rfl]
    exact h.head?_ne (by decide)

end

end PocketSql
