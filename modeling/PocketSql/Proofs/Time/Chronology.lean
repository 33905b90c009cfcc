/-
  Dates in text, ordered as they read.

  * `Digits`: a number of a fixed count of digits; `Digits.lt_append`: what stands first decides the
    order of two texts, and among digits their number does;
  * `NaiveText`: a date, alone or with a time after a mark, and the fields that it spells;
    `NaiveText.before`: the lower of two such texts spells the earlier fields;
  * `Timestamp.read?_naive`: what is read from such a text;
  * `dates_order_as_texts`: so the instants of two such texts are ordered as the texts, and so are
    the values that hold them, between themselves and against the texts.
-/
import PocketSql.Proofs.Number.Shown
import PocketSql.Proofs.Ordering.Scale
import PocketSql.Proofs.Predicate.Coherence
import PocketSql.Proofs.Time.Calendar
import PocketSql.Proofs.Token.Trimming

namespace PocketSql

/-! ## Digits -/

/-- A fixed count of digits. -/
structure Digits (count : Nat) (cs : List Char) : Prop where
  length_eq : cs.length = count
  isDigit : ∀ c ∈ cs, c.isDigit = true

section
variable {c d : Char} {as bs cs ds : List Char} {n : Nat}

theorem digitValue_lt (h : c.isDigit = true) : digitValue c < 10 := by
  have hzero : '0'.toNat = 48 := rfl
  have hnine : '9'.toNat = 57 := rfl
  have hhigh := (Char.isDigit_iff_toNat.1 h).2
  unfold digitValue
  omega

theorem digitValue_lt_digitValue (hc : c.isDigit = true) (h : c < d) :
    digitValue c < digitValue d := by
  have hlow := (Char.isDigit_iff_toNat.1 hc).1
  have hlt : c.toNat < d.toNat := h
  unfold digitValue
  omega

theorem digitsValue_cons (c : Char) (cs : List Char) :
    digitsValue (c :: cs) = digitValue c * tenPow cs.length + digitsValue cs := by
  have hstep : digitsValue (c :: cs) = digitsFrom (10 * 0 + digitValue c) cs := rfl
  rw [hstep, digitsFrom_eq, Nat.mul_zero, Nat.zero_add]

theorem digitsValue_lt (h : ∀ c ∈ cs, c.isDigit = true) : digitsValue cs < tenPow cs.length := by
  induction cs with
  | nil => decide
  | cons c cs ih =>
    obtain ⟨hc, hcs⟩ := List.forall_mem_cons.1 h
    have hrest := ih hcs
    have hfirst := Nat.mul_le_mul_right (tenPow cs.length) (digitValue_lt hc)
    rw [digitsValue_cons, List.length_cons, tenPow_add, Nat.mul_comm (tenPow cs.length)]
    rw [Nat.succ_mul] at hfirst
    show _ < 10 * tenPow cs.length
    omega

/-- Digits that stand before others of the same count spell a lower number. -/
theorem digitsValue_lt_digitsValue (ha : Digits n as) (hb : Digits n bs) (h : as < bs) :
    digitsValue as < digitsValue bs := by
  obtain ⟨hlength, hdigits⟩ := ha
  obtain ⟨hlength', hdigits'⟩ := hb
  have hsame : as.length = bs.length := hlength.trans hlength'.symm
  clear hlength hlength'
  induction as generalizing bs with
  | nil =>
    cases bs with
    | nil => exact absurd h (List.lt_irrefl [])
    | cons => cases hsame
  | cons a as ih =>
    cases bs with
    | nil => cases hsame
    | cons b bs =>
      obtain ⟨ha, has⟩ := List.forall_mem_cons.1 hdigits
      obtain ⟨hb, hbs⟩ := List.forall_mem_cons.1 hdigits'
      have hlength := Nat.succ.inj hsame
      rw [digitsValue_cons, digitsValue_cons, hlength]
      rcases List.cons_lt_cons_iff.1 h with hlt | ⟨rfl, hlt⟩
      · have hfirst := Nat.mul_le_mul_right (tenPow bs.length) (digitValue_lt_digitValue ha hlt)
        have hrest := digitsValue_lt has
        rw [hlength] at hrest
        rw [Nat.succ_mul] at hfirst
        omega
      · have hrest := ih hlt has hbs hlength
        omega

/-- Of texts that begin with as many characters, these decide the order, unless they are the
    same. -/
theorem lt_of_append_lt (hlength : as.length = bs.length) (h : as ++ cs < bs ++ ds) :
    as < bs ∨ as = bs ∧ cs < ds := by
  induction as generalizing bs with
  | nil =>
    cases bs with
    | nil => exact .inr ⟨rfl, h⟩
    | cons => cases hlength
  | cons a as ih =>
    cases bs with
    | nil => cases hlength
    | cons b bs =>
      rcases List.cons_lt_cons_iff.1 h with hlt | ⟨rfl, hlt⟩
      · exact .inl (List.cons_lt_cons_iff.2 (.inl hlt))
      · rcases ih (Nat.succ.inj hlength) hlt with hfirst | ⟨rfl, hrest⟩
        · exact .inl (List.cons_lt_cons_iff.2 (.inr ⟨rfl, hfirst⟩))
        · exact .inr ⟨rfl, hrest⟩

/-- Of texts that begin with digits of one count, their number decides the order, unless it is the
    same. -/
theorem Digits.lt_append (ha : Digits n as) (hb : Digits n bs) (h : as ++ cs < bs ++ ds) :
    digitsValue as < digitsValue bs ∨ digitsValue as = digitsValue bs ∧ cs < ds := by
  rcases lt_of_append_lt (ha.length_eq.trans hb.length_eq.symm) h with hlt | ⟨rfl, hlt⟩
  · exact .inl (digitsValue_lt_digitsValue ha hb hlt)
  · exact .inr ⟨rfl, hlt⟩

theorem lt_of_cons_lt (h : c :: cs < c :: ds) : cs < ds := by
  rcases List.cons_lt_cons_iff.1 h with hlt | ⟨-, hlt⟩
  · exact absurd hlt (lt_irrefl c)
  · exact hlt

end

/-! ## Layouts -/

/-- A date, `YYYY-MM-DD`, and what follows it. -/
inductive DateText (rest : List Char) : List Char → CivilDate → Prop
  | intro {year month day} : Digits 4 year → Digits 2 month → Digits 2 day →
      DateText rest (year ++ '-' :: (month ++ '-' :: (day ++ rest)))
        ⟨digitsValue year, digitsValue month, digitsValue day⟩

/-- A date, alone or followed by a mark and a time, `HH:MM:SS`; the layout is known by the mark. -/
inductive NaiveText : Option Char → List Char → CivilDate → DayTime → Prop
  | date {cs d} : DateText [] cs d → NaiveText none cs d .midnight
  | time {mark hour minute second cs d} : mark = ' ' ∨ mark = 'T' →
      Digits 2 hour → Digits 2 minute → Digits 2 second →
      DateText (mark :: (hour ++ ':' :: (minute ++ ':' :: second))) cs d →
      NaiveText (some mark) cs d ⟨digitsValue hour, digitsValue minute, digitsValue second, 0⟩

section
variable {cs ds rest rest' : List Char} {d e : CivilDate} {t u : DayTime} {mark : Option Char}

/-! ### Order -/

/-- Of two texts that begin with dates, the dates decide the order, unless they are the same. -/
theorem DateText.before (h : DateText rest cs d) (h' : DateText rest' ds e) (hlt : cs < ds) :
    d.Before e ∨ d = e ∧ rest < rest' := by
  obtain ⟨hyear, hmonth, hday⟩ := h
  obtain ⟨hyear', hmonth', hday'⟩ := h'
  unfold CivilDate.Before
  rcases hyear.lt_append hyear' hlt with hyears | ⟨hyears, hlt⟩
  · exact .inl (.inl (Int.ofNat_lt.2 hyears))
  rw [hyears]
  rcases hmonth.lt_append hmonth' (lt_of_cons_lt hlt) with hmonths | ⟨hmonths, hlt⟩
  · exact .inl (.inr ⟨rfl, .inl hmonths⟩)
  rw [hmonths]
  rcases hday.lt_append hday' (lt_of_cons_lt hlt) with hdays | ⟨hdays, hlt⟩
  · exact .inl (.inr ⟨rfl, .inr ⟨rfl, hdays⟩⟩)
  · rw [hdays]
    exact .inr ⟨rfl, hlt⟩

/-- Of two texts of one layout the lower one spells the earlier date and time. -/
theorem NaiveText.before (h : NaiveText mark cs d t) (h' : NaiveText mark ds e u) (hlt : cs < ds) :
    d.Before e ∨ d = e ∧ t.Before u := by
  cases h with
  | date hdate =>
    cases h' with
    | date hdate' =>
      rcases hdate.before hdate' hlt with hdays | ⟨-, hnone⟩
      · exact .inl hdays
      · exact absurd hnone (List.lt_irrefl [])
  | time _ hhour hminute hsecond hdate =>
    cases h' with
    | time _ hhour' hminute' hsecond' hdate' =>
      rcases hdate.before hdate' hlt with hdays | ⟨rfl, hlt⟩
      · exact .inl hdays
      refine .inr ⟨rfl, ?_⟩
      unfold DayTime.Before
      rcases hhour.lt_append hhour' (lt_of_cons_lt hlt) with hhours | ⟨hhours, hlt⟩
      · exact .inl hhours
      refine .inr ⟨hhours, ?_⟩
      rcases hminute.lt_append hminute' (lt_of_cons_lt hlt) with hminutes | ⟨hminutes, hlt⟩
      · exact .inl hminutes
      · exact .inr ⟨hminutes, digitsValue_lt_digitsValue hsecond hsecond' (lt_of_cons_lt hlt)⟩

/-! ### Reading -/

theorem Digits.readFixed {count : Nat} {digits : List Char} (h : Digits count digits)
    (rest : List Char) : readFixed count (digits ++ rest) = some (digitsValue digits, rest) := by
  have hall := List.all_eq_true.2 h.isDigit
  simp only [PocketSql.readFixed, List.take_left' h.length_eq, List.drop_left' h.length_eq,
    h.length_eq, hall, decide_true, Bool.and_self, if_true]

/-- Digits at the end of a text leave nothing. -/
theorem Digits.readFixed_end {count : Nat} {digits : List Char} (h : Digits count digits) :
    PocketSql.readFixed count digits = some (digitsValue digits, []) := by
  have hread := h.readFixed []
  rwa [List.append_nil] at hread

theorem readMark_cons (mark : Char) (rest : List Char) : readMark mark (mark :: rest) = some rest :=
  if_pos rfl

theorem DateText.readDate (h : DateText rest cs d) : readDate cs = some (d, rest) := by
  obtain ⟨hyear, hmonth, hday⟩ := h
  simp only [PocketSql.readDate, hyear.readFixed, hmonth.readFixed, hday.readFixed, readMark_cons,
    bind, Option.bind]

theorem readHourMinute_digits {hour minute : List Char} (hhour : Digits 2 hour)
    (hminute : Digits 2 minute) (rest : List Char) :
    readHourMinute (hour ++ ':' :: (minute ++ rest)) =
      some ((digitsValue hour, digitsValue minute), rest) := by
  simp only [readHourMinute, hhour.readFixed, hminute.readFixed, readMark_cons, bind, Option.bind]

/-- A date in text begins with a digit, and its last digit stands before what follows. -/
theorem DateText.ends (h : DateText rest cs d) :
    (∃ c others, cs = c :: others ∧ c.isDigit = true) ∧
      ∃ front c, cs = front ++ c :: rest ∧ c.isDigit = true := by
  obtain ⟨hyear, hmonth, hday⟩ := h
  rename_i year month day
  refine ⟨?_, ?_⟩
  · cases year with
    | nil => cases hyear.length_eq
    | cons c year => exact ⟨c, _, rfl, hyear.isDigit c List.mem_cons_self⟩
  · rcases List.eq_nil_or_concat' day with rfl | ⟨days, c, rfl⟩
    · cases hday.length_eq
    · exact ⟨year ++ '-' :: (month ++ '-' :: days), c, by simp, hday.isDigit c (by simp)⟩

theorem NaiveText.ends (h : NaiveText mark cs d t) :
    (∃ c others, cs = c :: others ∧ c.isDigit = true) ∧
      ∃ front c, cs = front ++ [c] ∧ c.isDigit = true := by
  cases h with
  | date hdate => exact hdate.ends
  | @time separator hour minute second _ _ _ _ _ hsecond hdate =>
    obtain ⟨hhead, front, c, rfl, -⟩ := hdate.ends
    refine ⟨hhead, ?_⟩
    rcases List.eq_nil_or_concat' second with rfl | ⟨seconds, last, rfl⟩
    · cases hsecond.length_eq
    · exact ⟨front ++ c :: separator :: (hour ++ ':' :: (minute ++ ':' :: seconds)), last,
        by simp, hsecond.isDigit last (by simp)⟩

/-- Nothing is trimmed from a date, though a blank may stand before its time. -/
theorem NaiveText.trim_eq (h : NaiveText mark cs d t) : trim cs = cs := by
  obtain ⟨⟨c, others, hcs, hc⟩, front, last, hcs', hlast⟩ := h.ends
  refine trim_of_ends ?_ ?_
  · rw [hcs]
    rintro _ ⟨⟩
    exact isBlank_of_isDigit hc
  · rw [hcs', List.getLast?_concat]
    rintro _ ⟨⟩
    exact isBlank_of_isDigit hlast

/-- There is no offset after a date, nor after its time. -/
theorem NaiveText.zoned?_eq (h : NaiveText mark cs d t) : zoned? cs = none := by
  cases h with
  | date hdate => simp only [zoned?, hdate.readDate, bind, Option.bind, List.head?_nil]
  | @time separator hour minute second _ _ hmark hhour hminute hsecond hdate =>
    have hbyte : separator.toNat < 0x80 := by
      rcases hmark with rfl | rfl <;> decide
    have hfraction : readFraction [] = none := rfl
    have hoffset : readOffset [] = none := rfl
    simp only [zoned?, hdate.readDate, List.head?_cons, List.tail_cons, hbyte, if_true,
      readHourMinute_digits hhour hminute, readMark_cons, hsecond.readFixed_end, hfraction,
      Option.getD_none, hoffset, bind, Option.bind]

theorem NaiveText.naive?_eq (h : NaiveText mark cs d t) :
    naive? cs = if d.isValid && t.isValid then
      some (if mark.isSome then .time else .date, instantNanos d t) else none := by
  have hsigned : ∀ {rest : List Char}, DateText rest cs d → readSignedDate cs = some (d, rest) := by
    intro rest hdate
    obtain ⟨c, others, hcs, hc⟩ := hdate.ends.1
    have hsplit : splitSign ([] ++ c :: others) = (false, c :: others) :=
      splitSign_number List.mem_cons_self (.inl hc)
    rw [List.nil_append, ← hcs] at hsplit
    simp only [readSignedDate, hsplit, hdate.readDate, bind, Option.bind, Bool.false_eq_true,
      if_false]
  cases h with
  | date hdate =>
    have hmidnight : DayTime.midnight.isValid = true := rfl
    simp only [naive?, hsigned hdate, bind, Option.bind, List.isEmpty_nil, if_true, hmidnight,
      Bool.and_true, Option.isSome_none, Bool.false_eq_true, if_false]
  | @time separator hour minute second _ _ hmark hhour hminute hsecond hdate =>
    have hseconds : readSeconds (':' :: second) = some (digitsValue second, 0) := by
      simp only [readSeconds, List.isEmpty_cons, Bool.false_eq_true, if_false, readMark_cons,
        hsecond.readFixed_end, bind, Option.bind, List.isEmpty_nil, if_true]
    have hmark : (separator = 'T' || separator = ' ') = true := by
      simpa [or_comm] using hmark
    have htime : readDayTime (separator :: (hour ++ ':' :: (minute ++ ':' :: second))) =
        some ⟨digitsValue hour, digitsValue minute, digitsValue second, 0⟩ := by
      simp only [readDayTime, List.head?_cons, hmark, if_true, List.tail_cons,
        readHourMinute_digits hhour hminute, hseconds, bind, Option.bind]
    simp only [naive?, hsigned hdate, bind, Option.bind, List.isEmpty_cons, htime,
      Bool.false_eq_true, if_false, Option.isSome_some, if_true]
    cases d.isValid <;> rfl

/-- **What is read from a date, alone or with a time.** -/
theorem Timestamp.read?_naive (h : NaiveText mark cs d t) :
    read? cs = if d.isValid && t.isValid then
      some ⟨String.ofList cs, if mark.isSome then .time else .date, instantNanos d t⟩
      else none := by
  simp only [read?, h.trim_eq, h.zoned?_eq, h.naive?_eq]
  cases d.isValid && t.isValid <;> rfl

/-- A text that is read spells a day and a time that exist, and stands for their instant. -/
theorem NaiveText.fields_of_read? {x : Timestamp} (h : NaiveText mark cs d t)
    (hread : Timestamp.read? cs = some x) :
    d.isValid = true ∧ t.isValid = true ∧ x.nanos = instantNanos d t := by
  rw [Timestamp.read?_naive h] at hread
  split at hread
  · next hvalid =>
    obtain ⟨hday, htime⟩ := Bool.and_eq_true_iff.1 hvalid
    cases hread
    exact ⟨hday, htime, rfl⟩
  · cases hread

theorem NaiveText.nano_eq (h : NaiveText mark cs d t) : t.nano = 0 := by
  cases h with
  | date => rfl
  | time => rfl

end

/-! ## Instants and values -/

section
variable {mark : Option Char} {a b : String} {d e : CivilDate} {t u : DayTime} {x y : Timestamp}

/-- The lower of two texts of one layout stands for the earlier instant. -/
theorem NaiveText.nanos_lt (ha : NaiveText mark a.toList d t) (hb : NaiveText mark b.toList e u)
    (hx : Timestamp.read? a.toList = some x) (hy : Timestamp.read? b.toList = some y)
    (hlt : a < b) : x.nanos < y.nanos := by
  obtain ⟨hd, ht, hnanos⟩ := ha.fields_of_read? hx
  obtain ⟨he, -, hnanos'⟩ := hb.fields_of_read? hy
  have hnano : t.nano < 1000000000 := by
    rw [ha.nano_eq]
    decide
  rw [hnanos, hnanos']
  exact instantNanos_lt hd he ht hnano (ha.before hb (String.lt_iff_toList_lt.1 hlt))

/-- The instants of two texts of one layout are ordered as the texts. -/
theorem NaiveText.compare_nanos (ha : NaiveText mark a.toList d t)
    (hb : NaiveText mark b.toList e u) (hx : Timestamp.read? a.toList = some x)
    (hy : Timestamp.read? b.toList = some y) :
    compare x.nanos y.nanos = Value.compareText a b := by
  have htexts := Value.compareText_compares a b
  refine (compare_int_compares x.nanos y.nanos).inj ?_
  cases horder : Value.compareText a b with
  | lt =>
    rw [horder] at htexts
    exact ha.nanos_lt hb hx hy htexts
  | eq =>
    rw [horder] at htexts
    cases (htexts : a = b)
    rw [hx] at hy
    cases hy
    exact rfl
  | gt =>
    rw [horder] at htexts
    exact hb.nanos_lt ha hy hx htexts

/-- A value that holds an instant and one that is read as a date are ordered by their instants, and
    two texts by their characters. -/
theorem Value.compare?_dates (hx : Timestamp.read? a.toList = some x)
    (hy : Timestamp.read? b.toList = some y) (hsame : compare x.nanos y.nanos = compareText a b) :
    ∀ v ∈ [instant x, text a], ∀ w ∈ [instant y, text b],
      v.compare? w = some (compareText a b) := by
  have hread : ∀ {s : String} {z : Timestamp}, Timestamp.read? s.toList = some z →
      ∀ v ∈ [instant z, text s],
        v.isNull = false ∧ v.isNumeric = false ∧ v.timestamp? = some z := by
    intro s z hz v hv
    rcases List.mem_pair.1 hv with rfl | rfl
    · exact ⟨rfl, rfl, rfl⟩
    · exact ⟨rfl, rfl, hz⟩
  intro v hv w hw
  obtain ⟨hnull, hnumber, hdate⟩ := hread hx v hv
  obtain ⟨hnull', hnumber', hdate'⟩ := hread hy w hw
  simp only [compare?, hnull, hnull', hnumber, hnumber', Bool.or_self, Bool.false_eq_true, if_false,
    compareDates?, hdate, hdate', hsame]
  rcases List.mem_pair.1 hv with rfl | rfl
  · rfl
  · rcases List.mem_pair.1 hw with rfl | rfl
    · rfl
    · rfl

/-- **Dates order as they read.**  Two texts of one layout, both read, are ordered as their
    instants; and this is the order, and the equality, of the values that hold the instants, of such
    a value and a text, and of the texts. -/
theorem dates_order_as_texts (ha : NaiveText mark a.toList d t) (hb : NaiveText mark b.toList e u)
    (hx : Timestamp.read? a.toList = some x) (hy : Timestamp.read? b.toList = some y) :
    compare x.nanos y.nanos = Value.compareText a b ∧
      ∀ v ∈ [Value.instant x, .text a], ∀ w ∈ [Value.instant y, .text b],
        v.compare? w = some (Value.compareText a b) ∧ v.looselyEquals w = (a == b) := by
  have hinstants := ha.compare_nanos hb hx hy
  refine ⟨hinstants, fun v hv w hw => ?_⟩
  have horder := Value.compare?_dates hx hy hinstants v hv w hw
  refine ⟨horder, ?_⟩
  rw [Value.looselyEquals_of_compare? horder, Value.beq_eq_compareText]

/-- A second before midnight, and the midnight after it, of the last day of a February. -/
theorem dates_order_as_texts_february :
    ∃ x y : Timestamp, Timestamp.read? "2024-02-29 23:59:59".toList = some x ∧
      Timestamp.read? "2024-03-01 00:00:00".toList = some y ∧ y.nanos = x.nanos + 1000000000 ∧
      (Value.instant x).compare? (.instant y) = some .lt ∧
      (Value.instant x).compare? (.text "2024-03-01 00:00:00") = some .lt ∧
      (Value.instant x).looselyEquals (.text "2024-02-29 23:59:59") = true := by
  have pair (a b : Char) (ha : a.isDigit = true) (hb : b.isDigit = true) : Digits 2 [a, b] :=
    ⟨rfl, by simp [ha, hb]⟩
  have hyear : Digits 4 ['2', '0', '2', '4'] := ⟨rfl, by simp⟩
  have hlast := pair '5' '9' rfl rfl
  have hzero := pair '0' '0' rfl rfl
  have ha : NaiveText (some ' ') "2024-02-29 23:59:59".toList _ _ :=
    .time (.inl rfl) (pair '2' '3' rfl rfl) hlast hlast
      (.intro hyear (pair '0' '2' rfl rfl) (pair '2' '9' rfl rfl))
  have hb : NaiveText (some ' ') "2024-03-01 00:00:00".toList _ _ :=
    .time (.inl rfl) hzero hzero hzero
      (.intro hyear (pair '0' '3' rfl rfl) (pair '0' '1' rfl rfl))
  have hx := Timestamp.read?_naive ha
  have hy := Timestamp.read?_naive hb
  have hlt : Value.compareText "2024-02-29 23:59:59" "2024-03-01 00:00:00" = .lt := by decide
  have hvalues := (dates_order_as_texts ha hb hx hy).2
  rw [hlt] at hvalues
  refine ⟨_, _, hx, hy, by decide, ?_, ?_, ?_⟩
  · exact (hvalues _ List.mem_cons_self _ List.mem_cons_self).1
  · exact (hvalues _ List.mem_cons_self _ (List.mem_cons_of_mem _ List.mem_cons_self)).1
  · have hself := (dates_order_as_texts ha ha hx hx).2
    exact (hself _ List.mem_cons_self _ (List.mem_cons_of_mem _ List.mem_cons_self)).2

end

end PocketSql
