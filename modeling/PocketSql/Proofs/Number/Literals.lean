/-
  Number tokens, read as values.

  * `SpellsPower`, `SpellsNumber`: the number that digits spell, with a point among, before or after
    them and an exponent, said without the reader;
  * `spellsNumber_of_mantissa`: what is scanned as a number spells one;
  * `Binary64.limit`: from here on numbers are rounded to infinity; `SpellsNumber.reads`: a text
    that spells a number, with or without a minus, is read, and as a finite number below this limit
    only;
  * `ofNumberText?_digits`: digits that spell a number in the range of 64 bits are that integer;
  * `number_tokens_read`: what this says of the number tokens of a text.
-/
import PocketSql.Proofs.Number.Shown
import PocketSql.Proofs.Token.Rendering

namespace PocketSql

/-! ## The numbers that texts spell -/

/-- The power of ten that an exponent stands for. -/
inductive SpellsPower : List Char → Int → Prop
  | none : SpellsPower [] 0
  | positive {e sign digits} : e ∈ ['e', 'E'] → sign ∈ [[], ['+']] → digits ≠ [] →
      (∀ d ∈ digits, d.isDigit = true) →
      SpellsPower (e :: (sign ++ digits)) (Nat.ofDigitChars 10 digits 0)
  | negative {e digits} : e ∈ ['e', 'E'] → digits ≠ [] → (∀ d ∈ digits, d.isDigit = true) →
      SpellsPower (e :: '-' :: digits) (-Nat.ofDigitChars 10 digits 0)

/-- The number that a text without a sign spells: the digits around the point, in units of the last
    one, times a power of ten. -/
inductive SpellsNumber : List Char → ℚ → Prop
  | intro {whole point fraction exponent power} : (∀ c ∈ whole ++ fraction, c.isDigit = true) →
      whole ++ fraction ≠ [] → (point = ['.'] ∨ point = [] ∧ fraction = []) →
      SpellsPower exponent power →
      SpellsNumber (whole ++ (point ++ (fraction ++ exponent)))
        (Nat.ofDigitChars 10 (whole ++ fraction) 0 * 10 ^ (power - fraction.length))

section
variable {cs digits sign : List Char} {q : ℚ}

theorem exists_spellsPower {exponent : List Char} (h : Exponent exponent) :
    ∃ power, SpellsPower exponent power := by
  cases h with
  | none => exact ⟨0, .none⟩
  | some he hsign hne hdigits =>
    simp only [List.mem_cons, List.not_mem_nil, or_false] at hsign
    rcases hsign with rfl | rfl | rfl
    · exact ⟨_, .positive he (by decide) hne hdigits⟩
    · exact ⟨_, .positive he (by decide) hne hdigits⟩
    · exact ⟨_, .negative he hne hdigits⟩

/-- What is scanned as a number spells one. -/
theorem spellsNumber_of_mantissa {mantissa exponent : List Char} (h : Mantissa mantissa)
    (h' : Exponent exponent) : ∃ q, SpellsNumber (mantissa ++ exponent) q := by
  obtain ⟨power, hpower⟩ := exists_spellsPower h'
  cases h with
  | whole hne hdigits =>
    show ∃ q, SpellsNumber (mantissa ++ ([] ++ ([] ++ exponent))) q
    rw [← List.append_nil mantissa] at hne hdigits
    exact ⟨_, .intro hdigits hne (.inr ⟨rfl, rfl⟩) hpower⟩
  | @pointed digits decimals hne hdigits hdecimals =>
    have htext : digits ++ '.' :: decimals ++ exponent =
        digits ++ (['.'] ++ (decimals ++ exponent)) := by simp
    rw [htext]
    exact ⟨_, .intro (List.forall_mem_append.2 ⟨hdigits, hdecimals⟩)
      (List.append_ne_nil_of_left_ne_nil hne _) (.inl rfl) hpower⟩
  | @fraction decimals hne hdecimals =>
    show ∃ q, SpellsNumber ([] ++ (['.'] ++ (decimals ++ exponent))) q
    exact ⟨_, .intro hdecimals hne (.inl rfl) hpower⟩

/-! ## Reading -/

theorem readExponent_of_spellsPower {exponent : List Char} {power : Int}
    (h : SpellsPower exponent power) : readExponent exponent = some power := by
  cases h with
  | none => rfl
  | @positive e sign digits he hsign hne hdigits =>
    have hmark : (e = 'e' || e = 'E') = true := by simpa using he
    have hsplit : splitSign (sign ++ digits) = (false, digits) := by
      simp only [List.mem_cons, List.not_mem_nil, or_false] at hsign
      rcases hsign with rfl | rfl
      · obtain ⟨d, digits, rfl⟩ := List.exists_cons_of_ne_nil hne
        exact splitSign_number (by decide) (.inl (hdigits d List.mem_cons_self))
      · rfl
    simp only [readExponent, hmark, if_true, hsplit, readDigits_eq hne hdigits, Bool.false_eq_true,
      if_false]
    rfl
  | @negative e digits he hne hdigits =>
    have hmark : (e = 'e' || e = 'E') = true := by simpa using he
    simp only [readExponent, hmark, if_true, splitSign, readDigits_eq hne hdigits]
    rfl

/-- A number begins with a digit or a point. -/
theorem SpellsNumber.head (h : SpellsNumber cs q) :
    ∃ c rest, cs = c :: rest ∧ (c.isDigit = true ∨ c = '.') := by
  cases h with
  | @intro whole point fraction exponent power hdigits hne hpoint hpower =>
    cases whole with
    | cons c whole => exact ⟨c, _, rfl, .inl (hdigits c List.mem_cons_self)⟩
    | nil =>
      rcases hpoint with rfl | ⟨rfl, rfl⟩
      · exact ⟨'.', _, rfl, .inr rfl⟩
      · exact absurd rfl hne

/-- Halfway from the highest finite number, 2^1024 - 2^971, to 2^1024: from here on numbers are
    rounded to infinity. -/
def Binary64.limit : ℚ :=
  (twoPow 1024 : ℕ) - (twoPow 970 : ℕ)

theorem inRange_iff_lt_limit {d : Nat} {k : Int} :
    InRange d k ↔ (d : ℚ) * 10 ^ k < Binary64.limit := by
  have hsum : overflow + twoPow 970 * (2 * unitsInOne) = twoPow 1024 * (2 * unitsInOne) := by
    decide +kernel
  have hlimit : Binary64.limit * (2 * unitsInOne) = overflow := by
    have hcast : (overflow : ℚ) + (twoPow 970 : ℕ) * (2 * unitsInOne) =
        (twoPow 1024 : ℕ) * (2 * unitsInOne) := by
      exact_mod_cast hsum
    rw [Binary64.limit, sub_mul, ← hcast, add_sub_cancel_right]
  have hpos : (0 : ℚ) < 2 * unitsInOne := by
    exact_mod_cast Nat.mul_pos Nat.two_pos Binary64.unitsInOne_pos
  rw [inRange_iff, ← hlimit, mul_lt_mul_iff_left₀ hpos]

/-- Integers of 64 bits lie far below the limit. -/
theorem lt_limit {n : Nat} (h : n ≤ signedLimit) : (n : ℚ) < Binary64.limit := by
  have hsum : n + twoPow 970 < twoPow 1024 :=
    Nat.lt_of_le_of_lt (Nat.add_le_add_right h _) (by decide +kernel)
  rw [Binary64.limit, lt_sub_iff_add_lt]
  exact_mod_cast hsum

/-- **A text that spells a number is read, and as a finite number below the limit only.** -/
theorem SpellsNumber.reads (h : SpellsNumber cs q) (hsign : sign ∈ [[], ['-']]) :
    ∃ x, readBinary64 (sign ++ cs) = some x ∧ (x.isFinite = true ↔ q < Binary64.limit) := by
  obtain ⟨c, rest, hcs, hc⟩ := h.head
  rw [hcs, readBinary64_signed hsign hc, ← hcs]
  cases h with
  | intro hdigits hne hpoint hpower =>
    rw [readUnsigned_decimal hdigits hne hpoint (readExponent_of_spellsPower hpower),
      digitsValue_eq]
    exact ⟨_, rfl, (isFinite_ofDecimal_iff _).trans inRange_iff_lt_limit⟩

/-! ### Digits only -/

/-- The integer that digits spell, after a minus or nothing. -/
def signedValue (sign digits : List Char) : Int :=
  if sign.isEmpty then Nat.ofDigitChars 10 digits 0 else -Nat.ofDigitChars 10 digits 0

theorem natAbs_signedValue (sign digits : List Char) :
    (signedValue sign digits).natAbs = Nat.ofDigitChars 10 digits 0 := by
  unfold signedValue
  split
  · exact Int.natAbs_natCast _
  · rw [Int.natAbs_neg, Int.natAbs_natCast]

theorem spellsNumber_digits (hne : digits ≠ []) (hdigits : ∀ c ∈ digits, c.isDigit = true) :
    SpellsNumber digits (Nat.ofDigitChars 10 digits 0) := by
  rw [← List.append_nil digits] at hne hdigits
  have hspells : SpellsNumber (digits ++ ([] ++ ([] ++ [])))
      (Nat.ofDigitChars 10 (digits ++ []) 0 * 10 ^ (0 - ([] : List Char).length)) :=
    .intro hdigits hne (.inr ⟨rfl, rfl⟩) .none
  simpa using hspells

/-- Digits, after a minus or nothing, are read as an integer if it fits. -/
theorem readInt64_digits (hsign : sign ∈ [[], ['-']]) (hne : digits ≠ [])
    (hdigits : ∀ c ∈ digits, c.isDigit = true) :
    readInt64 (sign ++ digits) =
      if fitsInt64 (signedValue sign digits) then some (Int64.ofInt (signedValue sign digits))
      else none := by
  have hsplit : splitSign (sign ++ digits) = (!sign.isEmpty, digits) := by
    obtain ⟨d, rest, rfl⟩ := List.exists_cons_of_ne_nil hne
    exact splitSign_number hsign (.inl (hdigits d List.mem_cons_self))
  have hvalue : (if (!sign.isEmpty) = true then -(Nat.ofDigitChars 10 digits 0 : Int)
      else Nat.ofDigitChars 10 digits 0) = signedValue sign digits := by
    cases sign <;> rfl
  simp only [readInt64, hsplit, readDigits_eq hne hdigits, hvalue]

/-- What is read as an integer consists of digits, and they spell no number above 2^63. -/
theorem digits_of_readInt64 {i : Int64} (h : SpellsNumber cs q) (hsign : sign ∈ [[], ['-']])
    (hread : readInt64 (sign ++ cs) = some i) :
    cs ≠ [] ∧ (∀ c ∈ cs, c.isDigit = true) ∧ Nat.ofDigitChars 10 cs 0 ≤ signedLimit := by
  obtain ⟨c, rest, rfl, hc⟩ := h.head
  have hne : c :: rest ≠ [] := List.cons_ne_nil c rest
  by_cases hdigits : ∀ d ∈ c :: rest, d.isDigit = true
  · refine ⟨hne, hdigits, ?_⟩
    rw [readInt64_digits hsign hne hdigits] at hread
    split at hread
    · next hfits =>
      obtain ⟨hlow, hhigh⟩ := Bool.and_eq_true_iff.1 hfits
      have hlow := of_decide_eq_true hlow
      have hhigh := of_decide_eq_true hhigh
      rw [← natAbs_signedValue sign]
      omega
    · cases hread
  · have hnone : readDigits (c :: rest) = none := by
      rw [readDigits, if_neg (by simp), if_neg (fun hall => hdigits (List.all_eq_true.1 hall))]
    simp only [readInt64, splitSign_number hsign hc, hnone] at hread
    cases hread

/-- A text that spells a number below the limit is a value, and no other one is. -/
theorem isSome_ofNumberText?_iff (h : SpellsNumber cs q) (hsign : sign ∈ [[], ['-']]) :
    (Value.ofNumberText? (sign ++ cs)).isSome = true ↔ q < Binary64.limit := by
  obtain ⟨x, hx, hfinite⟩ := h.reads hsign
  unfold Value.ofNumberText?
  cases hint : readInt64 (sign ++ cs) with
  | none =>
    dsimp only
    rw [Option.isSome_map, Value.finiteDecimal?, hx, ← hfinite]
    cases hclass : x.isFinite <;> simp [hclass]
  | some i =>
    obtain ⟨hne, hdigits, hle⟩ := digits_of_readInt64 h hsign hint
    obtain ⟨y, hy, hfinite'⟩ := (spellsNumber_digits hne hdigits).reads hsign
    obtain rfl : x = y := Option.some.inj (hx.symm.trans hy)
    exact iff_of_true rfl (hfinite.1 (hfinite'.2 (lt_limit hle)))

/-- Digits that spell an integer of 64 bits are that integer. -/
theorem ofNumberText?_digits (hsign : sign ∈ [[], ['-']]) (hne : digits ≠ [])
    (hdigits : ∀ c ∈ digits, c.isDigit = true)
    (hlow : Int64.minValue.toInt ≤ signedValue sign digits)
    (hhigh : signedValue sign digits ≤ Int64.maxValue.toInt) :
    ∃ i : Int64, i.toInt = signedValue sign digits ∧
      Value.ofNumberText? (sign ++ digits) = some (.integer i) := by
  have hmin : Int64.minValue.toInt = -9223372036854775808 := by decide
  have hmax : Int64.maxValue.toInt = 9223372036854775807 := by decide
  have hlimit : signedLimit = 9223372036854775808 := rfl
  have hfits : fitsInt64 (signedValue sign digits) = true := by
    rw [fitsInt64, hlimit, Bool.and_eq_true, decide_eq_true_iff, decide_eq_true_iff]
    omega
  refine ⟨Int64.ofInt (signedValue sign digits),
    Int64.toInt_ofInt_of_le (by omega) (by omega), ?_⟩
  rw [Value.ofNumberText?, readInt64_digits hsign hne hdigits, if_pos hfits]

end

/-! ## Number tokens -/

/-- **Number tokens are values.**  Every number token of a text spells a number, and with or without
    a minus before it, it is read as a value if and only if this number is not rounded beyond the
    highest finite one.  If it consists of digits and spells, with the minus, an integer of 64 bits,
    then the value is that integer, the lowest one included. -/
theorem number_tokens_read {text : List Char} {l : Lexed} (h : lex text = .ok l) {s : String}
    (hs : .number s ∈ kindsOf l.tokens) :
    (∃ q, SpellsNumber s.toList q) ∧
      (∀ q, SpellsNumber s.toList q → ∀ sign ∈ [[], ['-']],
        ((Value.ofNumberText? (sign ++ s.toList)).isSome = true ↔ q < Binary64.limit)) ∧
      ((∀ c ∈ s.toList, c.isDigit = true) → ∀ sign ∈ [[], ['-']],
        Int64.minValue.toInt ≤ signedValue sign s.toList →
        signedValue sign s.toList ≤ Int64.maxValue.toInt →
        ∃ i : Int64, i.toInt = signedValue sign s.toList ∧
          Value.ofNumberText? (sign ++ s.toList) = some (.integer i)) := by
  have hkinds : kindsIn text = some (kindsOf l.tokens) := by
    rw [kindsIn, h]
    rfl
  obtain ⟨piece, hpiece⟩ := written_of_kindsIn hkinds _ hs
  have hne := hpiece.ne_nil
  cases hpiece with
  | @number mantissa exponent hm he =>
    rw [String.toList_ofList]
    exact ⟨spellsNumber_of_mantissa hm he,
      fun q hq sign hsign => isSome_ofNumberText?_iff hq hsign,
      fun hdigits sign hsign hlow hhigh => ofNumberText?_digits hsign hne hdigits hlow hhigh⟩

/-- A point before the digits and an exponent, and the lowest integer, whose digits alone do not
    fit. -/
theorem number_tokens_read_mixed :
    ∃ l, lex ".5E+3 , -9223372036854775808".toList = .ok l ∧
      kindsOf l.tokens =
        [.number ".5E+3", .sign .comma, .sign .minus, .number "9223372036854775808"] ∧
      (Value.ofNumberText? ('-' :: ".5E+3".toList)).isSome = true ∧
      ∃ i : Int64, i.toInt = -9223372036854775808 ∧
        Value.ofNumberText? ('-' :: "9223372036854775808".toList) = some (.integer i) := by
  have hkinds : kindsIn ".5E+3 , -9223372036854775808".toList = some [.number ".5E+3",
      .sign .comma, .sign .minus, .number "9223372036854775808"] := by
    decide +kernel
  obtain ⟨l, hlex, hl⟩ := Option.map_eq_some_iff.1 hkinds
  have hlex := toOption_eq_some.1 hlex
  have hfraction : TokenKind.number ".5E+3" ∈ kindsOf l.tokens := by simp [hl]
  have hlowest : TokenKind.number "9223372036854775808" ∈ kindsOf l.tokens := by simp [hl]
  have hspells : SpellsNumber ".5E+3".toList 500 := by
    have hpower : SpellsPower ('E' :: (['+'] ++ ['3'])) 3 :=
      .positive (by decide) (by decide) (by decide) (List.all_eq_true.1 rfl)
    have hnumber : SpellsNumber ([] ++ (['.'] ++ (['5'] ++ 'E' :: (['+'] ++ ['3']))))
        (5 * 10 ^ (2 : Int)) :=
      .intro (List.all_eq_true.1 rfl) (by decide) (.inl rfl) hpower
    rwa [show (5 * 10 ^ (2 : Int) : ℚ) = 500 by norm_num] at hnumber
  have hlimit : (500 : ℚ) < Binary64.limit := by
    exact_mod_cast lt_limit (n := 500) (by decide)
  have hvalue : signedValue ['-'] "9223372036854775808".toList = -9223372036854775808 := by
    decide +kernel
  have hmin : Int64.minValue.toInt = -9223372036854775808 := by decide
  obtain ⟨i, hi, hread⟩ := (number_tokens_read hlex hlowest).2.2 (List.all_eq_true.1 rfl) ['-']
    (by decide) (by rw [hvalue, hmin]) (by rw [hvalue]; decide)
  exact ⟨l, hlex, hl, ((number_tokens_read hlex hfraction).2.1 500 hspells ['-'] (by decide)).2
    hlimit, i, hi.trans hvalue, hread⟩

end PocketSql
