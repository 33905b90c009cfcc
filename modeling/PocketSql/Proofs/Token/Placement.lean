/-
  Where the tokens of a text stand.

  * `placeAfter`: the line and the column after some characters, counted from the start of a text;
    `placeAfter_after`: counting goes on where it stopped; `placeAfter_before`: it only goes up;
  * `passed_of_skipGap`: what is passed over before a token is spacing, and before the end of the
    text it is spacing with a last comment that need not be closed (`Trailing`);
  * `Cut`: a text as spacing and written tokens by turns, each token with the place after what is
    before it; `cut_of_nextToken`, and by induction `cut_of_lexFrom`: so is every text that lexes;
  * `lex_places`: what this says of the tokens of a text and their places.
-/
import PocketSql.Proofs.Token.Rendering

namespace PocketSql

/-! ## Places -/

/-- The place after some characters from the start of a text: each newline begins a line, and each
    character after the last newline takes a column. -/
def placeAfter (before : List Char) : Position :=
  ⟨1 + before.count '\n', 1 + (before.reverse.takeWhile (· ≠ '\n')).length⟩

/-- A place comes before another one: in an earlier line, or in the same line further left. -/
def Position.Before (p q : Position) : Prop :=
  p.line < q.line ∨ p.line = q.line ∧ p.column < q.column

section
variable {before cs : List Char}

theorem placeAfter_next (before : List Char) (c : Char) :
    (placeAfter before).next c = placeAfter (before ++ [c]) := by
  by_cases hc : c = '\n'
  · subst hc
    simp [placeAfter, Position.next, Nat.add_assoc]
  · simp [placeAfter, Position.next, hc, Nat.add_comm 1]

theorem placeAfter_after (before cs : List Char) :
    (placeAfter before).after cs = placeAfter (before ++ cs) := by
  induction cs generalizing before with
  | nil => rw [List.append_nil]; rfl
  | cons c cs ih =>
    have hstep : (placeAfter before).after (c :: cs) = ((placeAfter before).next c).after cs := rfl
    rw [hstep, placeAfter_next, ih, List.append_assoc, List.singleton_append]

theorem Position.Before.trans {p q r : Position} (h : p.Before q) (h' : q.Before r) :
    p.Before r := by
  unfold Before at *
  omega

theorem Position.before_next (p : Position) (c : Char) : p.Before (p.next c) := by
  unfold next Before
  split
  · exact .inl (Nat.lt_succ_self _)
  · exact .inr ⟨rfl, Nat.lt_succ_self _⟩

theorem Position.before_after {p : Position} (h : cs ≠ []) : p.Before (p.after cs) := by
  induction cs generalizing p with
  | nil => exact absurd rfl h
  | cons c cs ih =>
    cases cs with
    | nil => exact p.before_next c
    | cons d cs => exact (p.before_next c).trans (ih (List.cons_ne_nil d cs))

/-- More characters lead to a later place. -/
theorem placeAfter_before (before : List Char) (h : cs ≠ []) :
    (placeAfter before).Before (placeAfter (before ++ cs)) :=
  placeAfter_after before cs ▸ Position.before_after h

end

/-! ## Gaps -/

/-- Spacing at the end of a text, where the last comment may go on to the end. -/
inductive Trailing : List Char → Prop
  | spacing {gap} : Spacing gap → Trailing gap
  | comment {gap comment} : Spacing gap → '\n' ∉ comment →
      Trailing (gap ++ '-' :: '-' :: comment)

/-- What may be passed over before the rest of a text. -/
def Passed (rest gap : List Char) : Prop :=
  Trailing gap ∧ (rest ≠ [] → Spacing gap)

section
variable {gap lead rest : List Char}

theorem Passed.prepend (h : Passed rest gap)
    (hlead : ∀ space, Spacing space → Spacing (lead ++ space)) : Passed rest (lead ++ gap) := by
  refine ⟨?_, fun hrest => hlead gap (h.2 hrest)⟩
  cases h.1 with
  | spacing hgap => exact .spacing (hlead gap hgap)
  | comment hspace hcomment =>
    rw [← List.append_assoc]
    exact .comment (hlead _ hspace) hcomment

/-- What is passed over from the inside of a gap: a comment is left first. -/
def Gap.Passed (rest : List Char) : Gap → List Char → Prop
  | .blank, gap => PocketSql.Passed rest gap
  | .lineComment, gap => '\n' ∉ gap ∧ rest = [] ∨
      ∃ comment after, gap = comment ++ '\n' :: after ∧ '\n' ∉ comment ∧
        PocketSql.Passed rest after
  | .blockComment, gap => ∃ comment after, gap = comment ++ '*' :: '/' :: after ∧
      ¬ ['*', '/'] <:+: comment ∧ PocketSql.Passed rest after

theorem passed_blank {c : Char} (hc : isBlank c = true) (h : Passed rest gap) :
    Passed rest (c :: gap) := by
  have hblank : Passed rest ([c] ++ gap) := h.prepend fun _ => .blank hc
  exact hblank

theorem passed_line (h : Gap.Passed rest .lineComment gap) : Passed rest ('-' :: '-' :: gap) := by
  rcases h with ⟨hgap, rfl⟩ | ⟨comment, after, rfl, hcomment, hafter⟩
  · exact ⟨.comment .nil hgap, absurd rfl⟩
  · have hclosed : Passed rest (('-' :: '-' :: (comment ++ ['\n'])) ++ after) :=
      hafter.prepend fun space hspace => by simpa using Spacing.line hcomment hspace
    simpa using hclosed

theorem passed_block (h : Gap.Passed rest .blockComment gap) :
    Passed rest ('/' :: '*' :: gap) := by
  obtain ⟨comment, after, rfl, hcomment, hafter⟩ := h
  have hclosed : Passed rest (('/' :: '*' :: (comment ++ ['*', '/'])) ++ after) :=
    hafter.prepend fun space hspace => by simpa using Spacing.block hcomment hspace
  simpa using hclosed

/-- One more character of a comment that is not left yet. -/
theorem passed_lineComment {c : Char} (hc : c ≠ '\n') (h : Gap.Passed rest .lineComment gap) :
    Gap.Passed rest .lineComment (c :: gap) := by
  rcases h with ⟨hgap, rfl⟩ | ⟨comment, after, rfl, hcomment, hafter⟩
  · exact .inl ⟨List.not_mem_cons_of_ne_of_not_mem hc.symm hgap, rfl⟩
  · exact .inr ⟨c :: comment, after, rfl, List.not_mem_cons_of_ne_of_not_mem hc.symm hcomment,
      hafter⟩

theorem passed_blockComment {c : Char} (hc : c = '*' → gap.head? ≠ some '/')
    (h : Gap.Passed rest .blockComment gap) : Gap.Passed rest .blockComment (c :: gap) := by
  obtain ⟨comment, after, rfl, hcomment, hafter⟩ := h
  refine ⟨c :: comment, after, rfl, ?_, hafter⟩
  rw [List.infix_cons_iff]
  rintro (⟨others, hmark⟩ | hinfix)
  · obtain ⟨rfl, rfl⟩ := List.cons.inj hmark
    exact hc rfl rfl
  · exact hcomment hinfix

end

/-- What is passed over, wherever in a gap one begins. -/
theorem passed_of_skipGap {gap : Gap} {p q : Position} {cs rest : List Char}
    (h : skipGap gap p cs = .ok (q, rest)) :
    ∃ passed, cs = passed ++ rest ∧ gap.Passed rest passed := by
  fun_induction skipGap gap p cs with
  | case1 => cases h
  | case2 | case7 =>
    cases h
    exact ⟨[], rfl, .spacing .nil, fun _ => .nil⟩
  | case3 =>
    cases h
    exact ⟨[], rfl, .inl ⟨List.not_mem_nil, rfl⟩⟩
  | case4 p rest' ih =>
    obtain ⟨passed, rfl, hpassed⟩ := ih h
    exact ⟨'-' :: '-' :: passed, rfl, passed_line hpassed⟩
  | case5 p rest' ih =>
    obtain ⟨passed, rfl, hpassed⟩ := ih h
    exact ⟨'/' :: '*' :: passed, rfl, passed_block hpassed⟩
  | case6 p c rest' _ _ hblank ih =>
    obtain ⟨passed, rfl, hpassed⟩ := ih h
    exact ⟨c :: passed, rfl, passed_blank hblank hpassed⟩
  | case8 p rest' ih =>
    obtain ⟨passed, rfl, hpassed⟩ := ih h
    exact ⟨'\n' :: passed, rfl, .inr ⟨[], passed, rfl, List.not_mem_nil, hpassed⟩⟩
  | case9 p c rest' hnewline ih =>
    obtain ⟨passed, rfl, hpassed⟩ := ih h
    exact ⟨c :: passed, rfl, passed_lineComment hnewline hpassed⟩
  | case10 p rest' ih =>
    obtain ⟨passed, rfl, hpassed⟩ := ih h
    exact ⟨'*' :: '/' :: passed, rfl, [], passed, rfl, by decide, hpassed⟩
  | case11 p c rest' hclose ih =>
    obtain ⟨passed, rfl, hpassed⟩ := ih h
    refine ⟨c :: passed, rfl, passed_blockComment ?_ hpassed⟩
    rintro rfl hslash
    obtain ⟨others, rfl⟩ := List.head?_eq_some_iff.1 hslash
    exact hclose (others ++ rest) rfl rfl

/-! ## Texts -/

/-- A text that stands after some characters, cut into tokens: spacing and written tokens by turns,
    and spacing up to the end.  The place of a token is that after all that is before it. -/
inductive Cut : List Char → List Char → List Token → Prop
  | stop {before gap} : Trailing gap → Cut before gap []
  | token {before gap piece rest kind tokens} : Spacing gap → Written piece kind →
      Cut (before ++ (gap ++ piece)) rest tokens →
      Cut before (gap ++ piece ++ rest) (⟨kind, placeAfter (before ++ gap)⟩ :: tokens)

section
variable {before cs rest : List Char} {p q : Position} {t : Token} {tokens : List Token}

/-- What stands next in a text: its end after trailing spacing, or a token after spacing. -/
theorem stop_of_nextToken (h : nextToken p cs = .ok (.stop q)) :
    Trailing cs ∧ q = p.after cs := by
  obtain ⟨⟨place, left⟩, hgap, h⟩ := bind_eq_ok.1 h
  cases left with
  | nil =>
    cases h
    obtain ⟨passed, hcs, hplace⟩ := skipGap_spec hgap
    obtain ⟨passed', hcs', htrailing, -⟩ := passed_of_skipGap hgap
    rw [List.append_nil] at hcs hcs'
    subst hcs hcs'
    exact ⟨htrailing, hplace⟩
  | cons c after =>
    obtain ⟨scan, -, h⟩ := bind_eq_ok.1 h
    cases h

theorem token_of_nextToken (h : nextToken p cs = .ok (.token t q rest)) :
    ∃ gap piece, cs = gap ++ piece ++ rest ∧ Spacing gap ∧ Written piece t.kind ∧
      t.place = p.after gap ∧ q = p.after (gap ++ piece) := by
  obtain ⟨⟨place, left⟩, hgap, h⟩ := bind_eq_ok.1 h
  cases left with
  | nil => cases h
  | cons c after =>
    obtain ⟨scan, hscan, h⟩ := bind_eq_ok.1 h
    obtain ⟨gap, hcs, hplace⟩ := skipGap_spec hgap
    obtain ⟨gap', hcs', -, hspacing⟩ := passed_of_skipGap hgap
    obtain rfl : gap = gap' := List.append_cancel_right (hcs.symm.trans hcs')
    obtain ⟨hcover, -⟩ := scanToken_spec hscan
    have hwritten := written_of_scanToken (isBlank_of_skipGap hgap) hscan
    cases h
    refine ⟨gap, scan.covered, ?_, hspacing (List.cons_ne_nil c after), hwritten, hplace, ?_⟩
    · rw [hcs, List.append_assoc, hcover]
    · rw [Position.after_append, hplace]

/-- A text that lexes is cut into its tokens. -/
theorem cut_of_lexFrom {l : Lexed} (h : lexFrom (placeAfter before) cs = .ok l) :
    Cut before cs l.tokens ∧ l.stop = placeAfter (before ++ cs) := by
  induction hlength : cs.length using Nat.strongRecOn generalizing before cs l with
  | _ n ih =>
    subst hlength
    rw [lexFrom] at h
    split at h
    · cases h
    · next place hnext =>
      obtain ⟨htrailing, rfl⟩ := stop_of_nextToken hnext
      cases h
      exact ⟨.stop htrailing, placeAfter_after before cs⟩
    · next t place rest hnext =>
      obtain ⟨⟨tokens, stop⟩, hrest, h⟩ := bind_eq_ok.1 h
      have hshorter := length_lt_of_nextToken hnext
      obtain ⟨gap, piece, rfl, hgap, hpiece, hplace, rfl⟩ := token_of_nextToken hnext
      rw [placeAfter_after] at hplace hrest
      obtain ⟨hcut, rfl⟩ := ih _ hshorter hrest rfl
      cases h
      refine ⟨?_, by rw [List.append_assoc]⟩
      have ht : t = ⟨t.kind, placeAfter (before ++ gap)⟩ := by rw [← hplace]
      rw [ht]
      exact .token hgap hpiece hcut

/-! ### What it is to be cut -/

theorem Cut.length_le (h : Cut before cs tokens) : tokens.length ≤ cs.length := by
  induction h with
  | stop => exact Nat.zero_le _
  | token _ hpiece _ ih =>
    have hpos := List.length_pos_iff.2 hpiece.ne_nil
    simp only [List.length_cons, List.length_append]
    omega

/-- A token stands at a character of the text. -/
theorem Cut.exists_place (h : Cut before cs tokens) (ht : t ∈ tokens) :
    ∃ skipped rest, cs = skipped ++ rest ∧ rest ≠ [] ∧
      t.place = placeAfter (before ++ skipped) := by
  induction h with
  | stop => cases ht
  | @token before gap piece rest kind tokens _ hpiece _ ih =>
    rcases List.mem_cons.1 ht with rfl | ht
    · refine ⟨gap, piece ++ rest, List.append_assoc _ _ _, ?_, rfl⟩
      exact List.append_ne_nil_of_left_ne_nil hpiece.ne_nil rest
    · obtain ⟨skipped, rest, rfl, hrest, hplace⟩ := ih ht
      refine ⟨gap ++ piece ++ skipped, rest, by simp, hrest, ?_⟩
      rw [hplace]
      simp

/-- The places go up from token to token, and on to the end. -/
theorem Cut.places (h : Cut before cs tokens) :
    (tokens.map (·.place) ++ [placeAfter (before ++ cs)]).Pairwise Position.Before := by
  induction h with
  | stop => exact List.pairwise_singleton _ _
  | @token before gap piece rest kind tokens _ hpiece hrest ih =>
    have hlater : ∀ later, (placeAfter (before ++ gap)).Before
        (placeAfter (before ++ (gap ++ piece) ++ later)) := by
      intro later
      have hne := List.append_ne_nil_of_left_ne_nil hpiece.ne_nil later
      simpa using placeAfter_before (before ++ gap) hne
    rw [List.map_cons, List.cons_append, List.pairwise_cons, ← List.append_assoc before]
    refine ⟨fun place hplace => ?_, ih⟩
    rcases List.mem_append.1 hplace with hmem | hstop
    · obtain ⟨t, ht, rfl⟩ := List.mem_map.1 hmem
      obtain ⟨skipped, others, -, -, hplace⟩ := hrest.exists_place ht
      rw [hplace]
      exact hlater skipped
    · rw [List.mem_singleton.1 hstop]
      exact hlater rest

end

/-! ## All tokens -/

/-- The tokens of a text with their places, and after them its end. -/
def Lexed.marks (l : Lexed) : List (Option TokenKind × Position) :=
  l.tokens.map (fun t => (some t.kind, t.place)) ++ [(none, l.stop)]

/-- **Places are exact and go up.**  A text that lexes is spacing and written tokens by turns, each
    token with the line and the column that the characters before its first one lead to, and then
    spacing up to the end, which is marked with the place that the whole text leads to.  Nothing
    else is marked as the end; with the end there is at most one mark more than the text has
    characters; and the places of the marks go up strictly. -/
theorem lex_places {text : List Char} {l : Lexed} (h : lex text = .ok l) :
    Cut [] text l.tokens ∧
      (∃ marks, l.marks = marks ++ [(none, placeAfter text)] ∧ ∀ mark ∈ marks, mark.1 ≠ none) ∧
      l.marks.length ≤ text.length + 1 ∧
      (l.marks.map Prod.snd).Pairwise Position.Before := by
  have hstart : lexFrom (placeAfter []) text = .ok l := h
  obtain ⟨hcut, hstop⟩ := cut_of_lexFrom hstart
  rw [List.nil_append] at hstop
  have hplaces : l.marks.map Prod.snd = l.tokens.map (·.place) ++ [placeAfter text] := by
    simp [Lexed.marks, hstop]
  refine ⟨hcut, ⟨l.tokens.map fun t => (some t.kind, t.place), by rw [Lexed.marks, hstop], ?_⟩,
    ?_, hplaces ▸ hcut.places⟩
  · intro mark hmark
    obtain ⟨t, -, rfl⟩ := List.mem_map.1 hmark
    exact Option.some_ne_none t.kind
  · have hle := hcut.length_le
    simp only [Lexed.marks, List.length_append, List.length_map, List.length_singleton]
    omega

/-- A text over several lines: newlines in comments and in a quoted text, and an exponent. -/
theorem lex_places_lines :
    ∃ l, lex "a /* 
 */ 'x
y' 1.5e-3<=

 -- b
;--".toList = .ok l ∧
      l.marks = [(some (.name "a"), ⟨1, 1⟩), (some (.text "x
y"), ⟨2, 5⟩),
        (some (.number "1.5e-3"), ⟨3, 4⟩), (some (.sign .le), ⟨3, 10⟩),
        (some (.sign .semicolon), ⟨6, 1⟩), (none, ⟨6, 4⟩)] ∧
      (l.marks.map Prod.snd).Pairwise Position.Before := by
  have hmarks : (lex "a /* \n */ 'x\ny' 1.5e-3<=\n\n -- b\n;--".toList).toOption.map Lexed.marks =
      some [(some (.name "a"), ⟨1, 1⟩), (some (.text "x\ny"), ⟨2, 5⟩),
        (some (.number "1.5e-3"), ⟨3, 4⟩), (some (.sign .le), ⟨3, 10⟩),
        (some (.sign .semicolon), ⟨6, 1⟩), (none, ⟨6, 4⟩)] := by
    decide +kernel
  obtain ⟨l, hlex, hl⟩ := Option.map_eq_some_iff.1 hmarks
  exact ⟨l, toOption_eq_some.1 hlex, hl, (lex_places (toOption_eq_some.1 hlex)).2.2.2⟩

end PocketSql
