/-
  How the signs of comparison fit together.

  * `Value.looselyEquals_of_compare?`: of values that have an order, those are equal that the order
    finds equal;
  * `Value.SameTextOnly`: values that have no order and are equal because they are shown alike;
    `Value.unordered_equal_iff`: they are the only ones;
  * `Timestamp.read?_of_shown`, `Value.number?_of_shown`: what is shown of a finite number spells a
    number and no date, so that none of them is among these values;
  * `holds_le_iff`: so `<=` is `<` or `=`, and `>=` is `>` or `=`, for all other values.
-/
import PocketSql.Proofs.Number.Shown
import PocketSql.Proofs.Ordering.Scale
import PocketSql.Proofs.Store.Retrieval
import PocketSql.Proofs.Token.Trimming

namespace PocketSql

/-! ## Values that have an order -/

namespace Value

variable {u v : Value}

theorem beq_eq_compareText (s t : String) : (s == t) = (compareText s t == .eq) := by
  unfold compareText
  split
  · next hlt => exact beq_eq_false_iff_ne.2 (ne_of_lt hlt)
  · split
    · next heq => simp [heq]
    · next hne => exact beq_eq_false_iff_ne.2 hne

/-- Values that have an order are equal if the order finds them equal. -/
theorem looselyEquals_of_compare? {order : Ordering} (h : u.compare? v = some order) :
    u.looselyEquals v = (order == .eq) := by
  unfold compare? at h
  unfold looselyEquals
  split at h
  · cases h
  · next hnull =>
    rw [if_neg hnull]
    split at h
    · cases hn : numbers? u v with
      | none => simp [hn] at h
      | some readings =>
        obtain ⟨x, y⟩ := readings
        simp only [hn] at h
        dsimp only
        rw [Binary64.equals, h]
        rfl
    · next hnumeric =>
      have hn : numbers? u v = none := if_neg hnumeric
      rw [hn]
      cases hd : compareDates? u v with
      | some found =>
        simp only [hd, Option.some.injEq] at h
        rw [h]
      | none =>
        simp only [hd] at h
        split at h
        · next s t =>
          obtain rfl := Option.some.inj h
          exact beq_eq_compareText s t
        · next p q =>
          obtain rfl := Option.some.inj h
          cases p <;> cases q <;> rfl
        · cases h

/-! ## Values that are shown alike -/

/-- Values of two kinds that have no order and are shown alike. -/
inductive SameTextOnly : Value → Value → Prop
  | truth {b} : SameTextOnly (boolean b) (text (boolean b).display)
  | notFinite {x : Binary64} : x.isFinite = false → SameTextOnly (decimal x) (text x.display)
  /-- A timestamp whose text is no date. -/
  | undated {t : Timestamp} {v : Value} : Timestamp.read? t.text.toList = none →
      v.isNull = false → v.isDated = false → v.display = t.text → SameTextOnly (instant t) v

end Value

/-! ### Texts of numbers -/

theorem ShownNumber.trim_eq {cs : List Char} (h : ShownNumber cs) : trim cs = cs := by
  refine trim_of_plain fun c hc => ?_
  rcases h.mem.1 c hc with hdigit | rfl | rfl
  · exact isBlank_of_isDigit hdigit
  · decide
  · decide

theorem eq_drop_of_readFixed {count n : Nat} {cs rest : List Char}
    (h : readFixed count cs = some (n, rest)) : rest = cs.drop count := by
  unfold readFixed at h
  dsimp only at h
  split at h
  · exact (Prod.mk.inj (Option.some.inj h)).2.symm
  · cases h

theorem mem_of_readMark {mark : Char} {cs rest : List Char} (h : readMark mark cs = some rest) :
    mark ∈ cs := by
  unfold readMark at h
  split at h
  · split at h
    · next heq => exact heq ▸ List.mem_cons_self
    · cases h
  · cases h

/-- A date has a hyphen after its year. -/
theorem hyphen_of_readDate {cs : List Char} {found : CivilDate × List Char}
    (h : readDate cs = some found) : '-' ∈ cs.tail := by
  obtain ⟨year, hyear, h⟩ := Option.bind_eq_some_iff.1 h
  obtain ⟨afterMark, hmark, -⟩ := Option.bind_eq_some_iff.1 h
  have hmem := mem_of_readMark hmark
  rw [eq_drop_of_readFixed hyear] at hmem
  exact List.mem_of_mem_drop (i := 3) (by rwa [List.drop_tail])

theorem hyphen_of_readSignedDate {cs : List Char} {found : CivilDate × List Char}
    (h : readSignedDate cs = some found) : '-' ∈ cs.tail := by
  obtain ⟨date, hdate, -⟩ := Option.bind_eq_some_iff.1 h
  have hmem := hyphen_of_readDate hdate
  split at hmem
  · exact List.mem_of_mem_tail hmem
  · exact List.mem_of_mem_tail hmem
  · exact hmem

/-- A text of a date has a hyphen, not only at its start. -/
theorem Timestamp.hyphen_of_read? {text : List Char} {t : Timestamp} (h : read? text = some t) :
    '-' ∈ (trim text).tail := by
  unfold read? at h
  dsimp only at h
  split at h
  · next hzoned =>
    obtain ⟨date, hdate, -⟩ := Option.bind_eq_some_iff.1 hzoned
    exact hyphen_of_readDate hdate
  · obtain ⟨found, hnaive, -⟩ := Option.map_eq_some_iff.1 h
    obtain ⟨date, hdate, -⟩ := Option.bind_eq_some_iff.1 hnaive
    exact hyphen_of_readSignedDate hdate

/-- The text of a number is no date. -/
theorem Timestamp.read?_of_shown {cs : List Char} (h : ShownNumber cs) : read? cs = none := by
  rw [Option.eq_none_iff_forall_ne_some]
  intro t ht
  have hhyphen := hyphen_of_read? ht
  rw [h.trim_eq] at hhyphen
  exact h.mem.2 hhyphen

/-- A timestamp keeps a text that is read as the same timestamp. -/
theorem Timestamp.read?_text {text : List Char} {t : Timestamp} (h : read? text = some t) :
    read? t.text.toList = some t := by
  have htext : t.text.toList = trim text := by
    unfold read? at h
    dsimp only at h
    split at h
    · obtain rfl := Option.some.inj h
      exact String.toList_ofList
    · obtain ⟨found, -, rfl⟩ := Option.map_eq_some_iff.1 h
      exact String.toList_ofList
  have hagain : read? (trim text) = read? text := by
    unfold read?
    rw [trim_trim]
  rw [htext, hagain, h]

namespace Value

variable {u v : Value}

/-- The text of a number spells a number. -/
theorem number?_of_shown {s : String} (h : ShownNumber s.toList) :
    ∃ x, (text s).number? = some x := by
  obtain ⟨x, hread, hfinite⟩ := h.reads
  refine ⟨x, ?_⟩
  rw [number?, finiteDecimal?, h.trim_eq, hread, Option.filter_some, if_pos hfinite]

theorem display_of_notFinite {x : Binary64} (h : x.isFinite = false) :
    x.display ∈ ["NaN", "inf", "-inf"] := by
  unfold Binary64.display Binary64.text
  simp only [h, Bool.false_eq_true, if_false]
  split
  · decide
  · split <;> decide

/-- A number is shown as a number, or it is not finite. -/
theorem shown_or_notFinite (h : v.isNumeric = true) :
    ShownNumber v.display.toList ∨ ∃ x : Binary64, v = decimal x ∧ x.isFinite = false := by
  cases v with
  | integer i => exact .inl (shown_toString i)
  | decimal x =>
    cases hx : x.isFinite with
    | true => exact .inl (Binary64.shown_display hx)
    | false => exact .inr ⟨x, rfl, hx⟩
  | null | text | boolean | instant => cases h

/-- What is shown of a number is neither a date nor a truth value. -/
theorem display_of_isNumeric (h : v.isNumeric = true) :
    Timestamp.read? v.display.toList = none ∧ ∀ b, v.display ≠ (boolean b).display := by
  rcases shown_or_notFinite h with hshown | ⟨x, rfl, hx⟩
  · refine ⟨Timestamp.read?_of_shown hshown, fun b hb => ?_⟩
    rw [hb] at hshown
    have hletter : 'e' ∈ (boolean b).display.toList := by cases b <;> decide
    rcases hshown.mem.1 'e' hletter with h | h | h <;> cases h
  · have hnames : ∀ name ∈ ["NaN", "inf", "-inf"], Timestamp.read? name.toList = none ∧
        ∀ b, name ≠ (boolean b).display := by
      decide
    exact hnames _ (display_of_notFinite hx)

theorem exists_number? (h : v.isNumeric = true) : ∃ x, v.number? = some x := by
  cases v with
  | integer i => exact ⟨_, rfl⟩
  | decimal x => exact ⟨x, rfl⟩
  | null | text | boolean | instant => cases h

theorem numbers?_ne_none {x y : Binary64} (h : u.isNumeric = true) (hu : u.number? = some x)
    (hv : v.number? = some y) : numbers? u v ≠ none := by
  simp [numbers?, h, hu, hv]

/-- A timestamp that is shown like a value that is none has no text of a date. -/
theorem sameTextOnly_of_instant {t : Timestamp} (hv : v.isNull = false)
    (hd : compareDates? (instant t) v = none) (hshown : t.text = v.display) :
    SameTextOnly (instant t) v := by
  have hnone : v.timestamp? = none := by
    cases htime : v.timestamp? with
    | none => rfl
    | some found =>
      simp only [compareDates?, htime] at hd
      cases hd
  refine .undated ?_ hv ?_ hshown.symm
  · rw [hshown]
    cases v with
    | null => cases hv
    | integer | decimal => exact (display_of_isNumeric rfl).1
    | text s => exact hnone
    | boolean b => cases b <;> decide
    | instant => cases hnone
  · cases v <;> first | rfl | cases hnone

/-- A number that is shown like a value of another kind is not finite, unless that is a
    timestamp. -/
theorem sameTextOnly_of_isNumeric (hu : u.isNumeric = true) (hv : v.isNull = false)
    (hn : numbers? u v = none) (hd : compareDates? v u = none) (hshown : u.display = v.display) :
    SameTextOnly u v ∨ SameTextOnly v u := by
  obtain ⟨x, hx⟩ := exists_number? hu
  cases v with
  | null => cases hv
  | integer | decimal => exact absurd hn (numbers?_ne_none hu hx rfl)
  | boolean b => exact absurd hshown ((display_of_isNumeric hu).2 b)
  | text s =>
    rcases shown_or_notFinite hu with hnum | ⟨y, rfl, hy⟩
    · rw [hshown] at hnum
      obtain ⟨y, hy⟩ := number?_of_shown hnum
      exact absurd hn (numbers?_ne_none hu hx hy)
    · obtain rfl : y.display = s := hshown
      exact .inl (.notFinite hy)
  | instant t =>
    have hnull : u.isNull = false := by cases u <;> first | rfl | cases hu
    exact .inr (sameTextOnly_of_instant hnull hd hshown.symm)

/-- Values that are not both numbers or both dates are equal if they are shown alike. -/
theorem looselyEquals_of_none (hu : u.isNull = false) (hv : v.isNull = false)
    (hn : numbers? u v = none) (hd : compareDates? u v = none) :
    u.looselyEquals v = (u.display == v.display) := by
  simp [looselyEquals, hu, hv, hn, hd]

/-- Values that are shown alike only have no order and are equal. -/
theorem SameTextOnly.unordered (h : SameTextOnly u v) :
    u.looselyEquals v = true ∧ u.compare? v = none := by
  cases h with
  | @truth b => cases b <;> exact ⟨rfl, rfl⟩
  | @notFinite x hx =>
    have hnames : ∀ name ∈ ["NaN", "inf", "-inf"], (text name).number? = none := by
      decide
    have hnumber := hnames _ (display_of_notFinite hx)
    have hn : numbers? (decimal x) (text x.display) = none := by
      simp [numbers?, hnumber]
    refine ⟨?_, ?_⟩
    · rw [looselyEquals_of_none rfl rfl hn rfl]
      exact beq_self_eq_true x.display
    · simp [compare?, isNumeric, hn]
  | @undated t _ hdate hnull hdated hshown =>
    have hn : numbers? (instant t) v = none := by
      simp [numbers?, number?]
    have hd : compareDates? (instant t) v = none := by
      have hnone : v.timestamp? = none := by
        cases v with
        | instant => cases hdated
        | text s =>
          obtain rfl : s = t.text := hshown
          exact hdate
        | null | integer | decimal | boolean => rfl
      simp [compareDates?, hnone]
    refine ⟨?_, ?_⟩
    · rw [looselyEquals_of_none rfl hnull hn hd, hshown]
      exact beq_self_eq_true t.text
    · simp [compare?, hn, hd]

theorem compareDates?_of_isNumeric (h : (u.isNumeric || v.isNumeric) = true) :
    compareDates? u v = none := by
  have hnone : ∀ {w : Value}, w.isNumeric = true → w.timestamp? = none := by
    intro w hw
    cases w <;> first | rfl | cases hw
  unfold compareDates?
  split
  · rcases Bool.or_eq_true_iff.1 h with hu | hv
    · rw [hnone hu]
    · rw [hnone hv]
      cases u.timestamp? <;> rfl
  · rfl

/-- Values that have no order and are equal are not both numbers or both dates. -/
theorem none_of_unordered (hequal : u.looselyEquals v = true) (horder : u.compare? v = none) :
    (u.isNull = false ∧ v.isNull = false) ∧ numbers? u v = none ∧ compareDates? u v = none := by
  unfold looselyEquals at hequal
  unfold compare? at horder
  split at hequal
  · cases hequal
  · next hnull =>
    rw [if_neg hnull] at horder
    refine ⟨Bool.or_eq_false_iff.1 (Bool.eq_false_iff.2 hnull), ?_⟩
    cases hn : numbers? u v with
    | some readings =>
      obtain ⟨x, y⟩ := readings
      have hnumeric : (u.isNumeric || v.isNumeric) = true := by
        by_contra hnot
        cases (if_neg hnot).symm.trans hn
      simp only [hn] at hequal
      simp only [hnumeric, if_true, hn] at horder
      rw [Binary64.equals, horder] at hequal
      cases hequal
    | none =>
      refine ⟨rfl, ?_⟩
      split at horder
      · next hnumeric => exact compareDates?_of_isNumeric hnumeric
      · cases hd : compareDates? u v with
        | none => rfl
        | some order =>
          simp only [hd] at horder
          cases horder

/-- Values that have no order and are shown alike: the kinds of the two decide why. -/
theorem sameTextOnly_of_none (hu : u.isNull = false) (hv : v.isNull = false)
    (horder : u.compare? v = none) (hn : numbers? u v = none) (hd : compareDates? u v = none)
    (hshown : u.display = v.display) : SameTextOnly u v ∨ SameTextOnly v u := by
  have hn' : numbers? v u = none := by rw [numbers?_swap u v, hn, Option.map_none]
  have hd' : compareDates? v u = none := by rw [compareDates?_swap u v, hd, Option.map_none]
  cases u with
  | null => cases hu
  | integer | decimal => exact sameTextOnly_of_isNumeric rfl hv hn hd' hshown
  | instant t => exact .inl (sameTextOnly_of_instant hv hd hshown)
  | text s =>
    cases v with
    | null => cases hv
    | integer | decimal => exact (sameTextOnly_of_isNumeric rfl hu hn' hd hshown.symm).symm
    | text => cases horder
    | boolean b =>
      obtain rfl : s = (boolean b).display := hshown
      exact .inr .truth
    | instant t => exact .inr (sameTextOnly_of_instant hu hd' hshown.symm)
  | boolean b =>
    cases v with
    | null => cases hv
    | integer | decimal => exact (sameTextOnly_of_isNumeric rfl hu hn' hd hshown.symm).symm
    | text s =>
      obtain rfl : (boolean b).display = s := hshown
      exact .inl .truth
    | boolean => cases horder
    | instant t => exact .inr (sameTextOnly_of_instant hu hd' hshown.symm)

/-- **The values that have no order and are equal.** -/
theorem unordered_equal_iff :
    u.looselyEquals v = true ∧ u.compare? v = none ↔ SameTextOnly u v ∨ SameTextOnly v u := by
  constructor
  · rintro ⟨hequal, horder⟩
    obtain ⟨⟨hu, hv⟩, hn, hd⟩ := none_of_unordered hequal horder
    rw [looselyEquals_of_none hu hv hn hd, beq_iff_eq] at hequal
    exact sameTextOnly_of_none hu hv horder hn hd hequal
  · rintro (h | h)
    · exact h.unordered
    · rw [looselyEquals_comm, compare?_swap v u, h.unordered.2]
      exact ⟨h.unordered.1, rfl⟩

end Value

/-! ## Comparisons in a condition -/

/-- What the signs of order say; an absent value has none. -/
theorem CompareOp.holds_order (cell literal : Value) :
    lt.holds cell literal = (cell.compare? literal == some .lt) ∧
      le.holds cell literal =
        (cell.compare? literal == some .lt || cell.compare? literal == some .eq) ∧
      gt.holds cell literal = (cell.compare? literal == some .gt) ∧
      ge.holds cell literal =
        (cell.compare? literal == some .gt || cell.compare? literal == some .eq) := by
  by_cases hnull : (cell.isNull || literal.isNull) = true
  · have horder : cell.compare? literal = none := if_pos hnull
    simp [holds, hnull, horder]
  · simp [holds, hnull]

/-- **`<=` is `<` or `=`, and `>=` is `>` or `=`,** but for values that have no order and are shown
    alike: of those `=` holds, and no sign of order does.  At most one of `<`, `=` and `>` holds of
    any values.  No timestamp that was read from a text is among those that are shown alike. -/
theorem holds_le_iff (row : Row) (column : String) (literal : Value) :
    let cell := row.getD column
    let keeps := fun op => (Predicate.compare column op literal).holds row = true
    let alike := cell.SameTextOnly literal ∨ literal.SameTextOnly cell
    ((keeps .le ↔ keeps .lt ∨ keeps .eq) ∧ (keeps .ge ↔ keeps .gt ∨ keeps .eq) ↔ ¬ alike) ∧
      (alike → keeps .eq ∧ ¬ keeps .lt ∧ ¬ keeps .le ∧ ¬ keeps .gt ∧ ¬ keeps .ge) ∧
      ¬ (keeps .lt ∧ keeps .eq) ∧ ¬ (keeps .eq ∧ keeps .gt) ∧ ¬ (keeps .lt ∧ keeps .gt) ∧
      ∀ text t v, Timestamp.read? text = some t → ¬ Value.SameTextOnly (.instant t) v := by
  intro cell keeps alike
  have hkeeps : ∀ op, keeps op ↔ op.holds cell literal = true := fun _ => Iff.rfl
  have halike : cell.looselyEquals literal = true ∧ cell.compare? literal = none ↔ alike :=
    Value.unordered_equal_iff
  have hread : ∀ text t v, Timestamp.read? text = some t →
      ¬ Value.SameTextOnly (.instant t) v := by
    intro text t v hread h
    cases h with
    | undated hdate => cases (Timestamp.read?_text hread).symm.trans hdate
  obtain ⟨hlt, hle, hgt, hge⟩ := CompareOp.holds_order cell literal
  simp only [hkeeps, CompareOp.holds_eq, hlt, hle, hgt, hge, ← halike]
  cases horder : cell.compare? literal with
  | some order =>
    rw [Value.looselyEquals_of_compare? horder]
    cases order <;> simpa using hread
  | none => cases cell.looselyEquals literal <;> simpa using hread

theorem holds_le_iff_mixed :
    let five : Row := .ofCells [("v", .integer 5)]
    let yes : Row := .ofCells [("v", .boolean true)]
    ¬ ((Predicate.compare "v" .lt (.text " 5.0 ")).holds five = true ∧
        (Predicate.compare "v" .eq (.text " 5.0 ")).holds five = true) ∧
      (Predicate.compare "v" .eq (.text "true")).holds yes = true ∧
      ¬ (Predicate.compare "v" .le (.text "true")).holds yes = true ∧
      ∃ t, Timestamp.read? "2024-01-02".toList = some t ∧
        ¬ Value.SameTextOnly (.instant t) (.text "2024-01-02") := by
  intro five yes
  have hfive := holds_le_iff five "v" (.text " 5.0 ")
  have hyes := (holds_le_iff yes "v" (.text "true")).2.1 (.inl (.truth (b := true)))
  have hdate : Timestamp.read? "2024-01-02".toList =
      some ⟨"2024-01-02", .date, 1704153600000000000⟩ := by
    decide +kernel
  exact ⟨hfive.2.2.1, hyes.1, hyes.2.2.1, _, hdate, hfive.2.2.2.2.2 _ _ _ hdate⟩

/-- `TRUE` is shown like the text `'true'`, but the two have no order. -/
theorem holds_le_not_eq :
    let row : Row := .ofCells [("b", .boolean true)]
    (Predicate.compare "b" .eq (.text "true")).holds row = true ∧
      (Predicate.compare "b" .le (.text "true")).holds row = false ∧
      (Predicate.compare "b" .ge (.text "true")).holds row = false := by
  decide

end PocketSql
