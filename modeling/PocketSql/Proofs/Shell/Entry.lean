/-
  Statements that are entered over several lines.

  * `keptLine`, `keptText`: what the shell keeps of a line and of some lines;
    `keptText_splitLines`: of the lines of a text it keeps the entered text without the blanks
    before it, so that `kindsIn_keptText` gives the tokens;
  * `run_congr`: texts that spell the same statement do the same;
  * `IsEntry`: lines that are one entry; `Shell.runsOnce`: what is written if a text is run once,
    by `Shell.runsOnce_congr` the same for texts with the same tokens;
  * `Shell.runLines_rest`, `Shell.runLines_entry`: the lines of an entry run what is kept of them;
  * `shell_runs_entry`: which spells the statement of the text, unless a quoted text of it has a
    newline beside another blank; `shell_alters_text`: one that has is altered.
-/
import PocketSql.Proofs.Statement.Places
import PocketSql.Proofs.Store.Change
import PocketSql.Proofs.Token.Squeezing
import PocketSql.Shell.Basic

namespace PocketSql

/-! ## Lines -/

/-- What the shell keeps of a line. -/
def keptLine (line : List Char) : List Char :=
  if trim line = [] then [] else trim line ++ ['\n']

/-- What the shell keeps of some lines. -/
def keptText (lines : List (List Char)) : List Char :=
  lines.flatMap keptLine

section
variable {c : Char} {line rest : List Char}

/-- Before a newline, the blanks at the end of a line are dropped. -/
theorem foldr_press_line (h : '\n' ∉ line) (rest : List Char) :
    line.foldr press ('\n' :: rest) = trimRight line ++ '\n' :: rest := by
  induction line with
  | nil => rfl
  | cons c line ih =>
    obtain ⟨hc, hline⟩ := List.ne_and_not_mem_of_not_mem_cons h
    have hhead : (trimRight line ++ '\n' :: rest).head? = some '\n' ↔ trimRight line = [] := by
      cases htrim : trimRight line with
      | nil => simp
      | cons d ds =>
        have hd : d ∈ line := trimRight_subset line (htrim ▸ List.mem_cons_self)
        have hne : d ≠ '\n' := fun heq => hline (heq ▸ hd)
        simp [hne]
    rw [List.foldr_cons, ih hline, trimRight_cons, press, if_neg hc.symm]
    simp only [hhead]
    split
    · next hdropped => rw [hdropped.2]
    · rfl

theorem trimLeft_foldr_press (line rest : List Char) :
    trimLeft (line.foldr press rest) = trimLeft ((trimLeft line).foldr press rest) := by
  induction line with
  | nil => rfl
  | cons c line ih =>
    by_cases hc : isBlank c = true
    · rw [trimLeft_of_blank hc, List.foldr_cons, trimLeft_press hc, ih]
    · rw [trimLeft_of_plain (Bool.eq_false_iff.2 hc)]

/-- A line is kept as it is entered, if no blank stands before it. -/
theorem trimLeft_line (h : '\n' ∉ line) (rest : List Char) :
    trimLeft (line.foldr press (press '\n' rest)) = keptLine line ++ trimLeft rest := by
  have hnewline : isBlank '\n' = true := by decide
  have hline : '\n' ∉ trimLeft line := fun hmem => h ((List.dropWhile_sublist _).subset hmem)
  rw [trimLeft_foldr_press, press_newline, foldr_press_line hline, ← trim, keptLine]
  rcases trim_cases line with htrim | ⟨d, ds, htrim, hd⟩
  · rw [htrim, if_pos rfl, List.nil_append, List.nil_append, trimLeft_of_blank hnewline,
      trimLeft_trimLeft]
  · rw [htrim, if_neg (List.cons_ne_nil d ds), List.cons_append, trimLeft_of_plain hd]
    simp

theorem trimLeft_squeeze_lines {lines : List (List Char)} (h : ∀ line ∈ lines, '\n' ∉ line) :
    trimLeft (squeeze (lines.flatMap (· ++ ['\n']))) = keptText lines := by
  induction lines with
  | nil => rfl
  | cons line lines ih =>
    obtain ⟨hline, hlines⟩ := List.forall_mem_cons.1 h
    rw [keptText, List.flatMap_cons, List.flatMap_cons, ← keptText, ← ih hlines, squeeze,
      List.foldr_append, List.foldr_append]
    exact trimLeft_line hline _

/-- A character that is no newline begins the first line. -/
theorem splitLines_cons (hc : c ≠ '\n') (text : List Char) :
    text = [] ∧ splitLines (c :: text) = [[c]] ∨
      ∃ line lines, splitLines text = line :: lines ∧
        splitLines (c :: text) = (c :: line) :: lines := by
  cases text with
  | nil => exact .inl ⟨rfl, by simp [splitLines, hc]⟩
  | cons d text =>
    obtain ⟨line, lines, hlines⟩ : ∃ line lines, splitLines (d :: text) = line :: lines := by
      rw [splitLines]
      split
      · exact ⟨_, _, rfl⟩
      · split <;> exact ⟨_, _, rfl⟩
    exact .inr ⟨line, lines, hlines, by rw [splitLines, if_neg hc, hlines]⟩

theorem newline_notMem_splitLines (text : List Char) : ∀ line ∈ splitLines text, '\n' ∉ line := by
  induction text with
  | nil => nofun
  | cons c text ih =>
    by_cases hc : c = '\n'
    · subst hc
      exact List.forall_mem_cons.2 ⟨List.not_mem_nil, ih⟩
    · rcases splitLines_cons hc text with ⟨-, hsplit⟩ | ⟨line, lines, hlines, hsplit⟩
      · rw [hsplit]
        simpa using Ne.symm hc
      · rw [hlines] at ih
        obtain ⟨hline, hothers⟩ := List.forall_mem_cons.1 ih
        rw [hsplit]
        exact List.forall_mem_cons.2
          ⟨List.not_mem_cons_of_ne_of_not_mem (Ne.symm hc) hline, hothers⟩

/-- The lines of a text are the text, with a newline after it unless it ends with one. -/
theorem squeeze_splitLines (text : List Char) (h : text ≠ []) :
    squeeze ((splitLines text).flatMap (· ++ ['\n'])) = entered text := by
  induction text with
  | nil => exact absurd rfl h
  | cons c text ih =>
    by_cases hc : c = '\n'
    · subst hc
      cases text with
      | nil => rfl
      | cons d text => exact congrArg (press '\n') (ih (List.cons_ne_nil d text))
    · rcases splitLines_cons hc text with ⟨rfl, hsplit⟩ | ⟨line, lines, hlines, hsplit⟩
      · rw [hsplit]
        rfl
      · have htext : text ≠ [] := by
          rintro rfl
          cases hlines
        rw [hlines] at ih
        rw [hsplit]
        exact congrArg (press c) (ih htext)

/-- What is kept of the lines of a text is the entered text, without the blanks before it. -/
theorem keptText_splitLines (text : List Char) :
    keptText (splitLines text) = trimLeft (entered text) := by
  rw [← trimLeft_squeeze_lines (newline_notMem_splitLines text)]
  by_cases h : text = []
  · subst h
    rfl
  · rw [squeeze_splitLines text h]

/-- What is kept of the lines of a text has its tokens, with every quoted text squeezed. -/
theorem kindsIn_keptText (text : List Char) : kindsIn (keptText (splitLines text)) =
    (kindsIn text).map (List.map TokenKind.squeezed) := by
  rw [keptText_splitLines, kindsIn_trimLeft, kindsIn_entered]

end

/-! ## Texts with the same statement -/

section
variable {text text' : List Char}

/-- Texts that spell the same statement do the same. -/
theorem run_congr (h : (parse text).toOption = (parse text').toOption) (clock : Nat → Timestamp)
    (e : Engine) : (e.run clock text).2 = (e.run clock text').2 ∧
      ∀ statement, parse text' = .ok statement → e.run clock text = e.run clock text' := by
  cases hparse' : parse text' with
  | ok statement =>
    rw [hparse', Except.toOption, toOption_eq_some] at h
    have hstore : e.store.run e.settings clock text = e.store.run e.settings clock text' :=
      (Operation.executeText_of_ok h e.store).trans (Operation.executeText_of_ok hparse' e.store).symm
    have hrun : e.run clock text = e.run clock text' := by rw [Engine.run, Engine.run, hstore]
    exact ⟨congrArg Prod.snd hrun, fun _ _ => hrun⟩
  | error cause' =>
    refine ⟨?_, fun _ hok => by cases hok⟩
    cases hparse : parse text with
    | ok statement => rw [hparse, hparse'] at h; cases h
    | error cause =>
      have hstore : e.store.run e.settings clock text = (.error cause, e.store) :=
        Operation.executeText_of_error hparse e.store
      have hstore' : e.store.run e.settings clock text' = (.error cause', e.store) :=
        Operation.executeText_of_error hparse' e.store
      rw [Engine.run, Engine.run, hstore, hstore']

end

/-! ## Entries -/

/-- Lines that are one entry: the first one is no command and not blank, and only the last one ends
    with `;`. -/
structure IsEntry (lines : List (List Char)) : Prop where
  first : ∃ line ∈ lines.head?, trim line ≠ [] ∧ (trim line).head? ≠ some '.'
  last : ∃ line ∈ lines.getLast?, (trim line).getLast? = some ';'
  middle : ∀ line ∈ lines.dropLast, (trim line).getLast? ≠ some ';'

/-- Outputs before outputs before a transcript. -/
theorem Transcript.after_after (outputs others : List Output) (t : Transcript) :
    (t.after others).after outputs = t.after (outputs ++ others) := by
  simp [after]

namespace Shell

/-- What is written for a text that is run at the line number `n`, and over the lines after it unless
    it breaks off. -/
def answers (clocks : Nat → Nat → Timestamp) (s : Shell) (n : Nat) (text : List Char)
    (more : List (List Char)) : Transcript :=
  let (result, engine) := s.engine.run (clocks n) text
  match resultOutput s.json result with
  | some output =>
    (runLines (fun i => clocks (i + n + 1)) { s with engine := engine, pending := [] } more).after
      [output]
  | none => breakingOff

/-- What is written for `n + 1` lines that run a text once, and over the lines after them. -/
def runsOnce (clocks : Nat → Nat → Timestamp) (s : Shell) (n : Nat) (text : List Char)
    (more : List (List Char)) : Transcript :=
  (s.answers clocks n text more).after
    (.out "querylab> " :: List.replicate n (.out "       -> "))

/-- Texts with the same tokens give the same, if they spell a statement. -/
theorem runsOnce_congr {text text' : List Char} {statement : Statement}
    (h : kindsIn text = kindsIn text') (hparse : (parse text').toOption = some statement)
    (clocks : Nat → Nat → Timestamp) (s : Shell) (n : Nat) (more : List (List Char)) :
    s.runsOnce clocks n text more = s.runsOnce clocks n text' more := by
  obtain ⟨-, hsame⟩ := run_congr (parse_congr h) (clocks n) s.engine
  rw [runsOnce, runsOnce, answers, answers, hsame statement (toOption_eq_some.1 hparse)]

section
variable {clocks : Nat → Nat → Timestamp} {clock : Nat → Timestamp} {s : Shell} {line : List Char}

/-- A line that is no command is added to the lines before it, unless it is blank. -/
theorem step_eq (hcommand : s.pending = [] → (trim line).head? ≠ some '.') :
    s.step clock line = if trim line = [] then .go s [] else s.addLine clock (trim line) := by
  have hpoint : ((trim line).head? = some '.' && s.pending.isEmpty) ≠ true := by
    simpa using fun hhead hpending => hcommand hpending hhead
  rw [step, if_neg hpoint]
  simp only [List.isEmpty_iff]

theorem step_of_middle (hcommand : s.pending = [] → (trim line).head? ≠ some '.')
    (hline : (trim line).getLast? ≠ some ';') :
    s.step clock line = .go { s with pending := s.pending ++ keptLine line } [] := by
  rw [step_eq hcommand, keptLine]
  split
  · rw [List.append_nil]
  · rw [addLine, if_neg hline, List.append_assoc]

theorem step_of_last (hcommand : s.pending = [] → (trim line).head? ≠ some '.')
    (hline : (trim line).getLast? = some ';') :
    s.step clock line =
      let (result, engine) := s.engine.run clock (s.pending ++ keptLine line)
      s.afterRun result engine := by
  have hne : trim line ≠ [] := by
    intro hnil
    rw [hnil] at hline
    cases hline
  rw [step_eq hcommand, keptLine, if_neg hne, if_neg hne, addLine, if_pos hline, List.append_assoc]

theorem runLines_of_go {s' : Shell} {outputs : List Output}
    (h : s.step (clocks 0) line = .go s' outputs) (lines : List (List Char)) :
    s.runLines clocks (line :: lines) =
      (s'.runLines (fun n => clocks (n + 1)) lines).after (.out s.prompt :: outputs) := by
  rw [runLines, h]

/-- The line that ends an entry runs it. -/
theorem runLines_last (hcommand : s.pending = [] → (trim line).head? ≠ some '.')
    (hline : (trim line).getLast? = some ';') (more : List (List Char)) :
    s.runLines clocks (line :: more) =
      (s.answers clocks 0 (s.pending ++ keptLine line) more).after [.out s.prompt] := by
  rw [runLines, step_of_last hcommand hline, answers]
  dsimp only [afterRun]
  cases resultOutput s.json (s.engine.run (clocks 0) (s.pending ++ keptLine line)).1 with
  | none => rfl
  | some output => rfl

/-- Lines that are entered after the first one of an entry run it once. -/
theorem runLines_rest {last : List Char} {front more : List (List Char)} (hpending : s.pending ≠ [])
    (hfront : ∀ line ∈ front, (trim line).getLast? ≠ some ';')
    (hlast : (trim last).getLast? = some ';') :
    s.runLines clocks (front ++ last :: more) =
      (s.answers clocks front.length (s.pending ++ keptText (front ++ [last])) more).after
        (List.replicate (front.length + 1) (.out "       -> ")) := by
  induction front generalizing s clocks with
  | nil =>
    have hprompt : s.prompt = "       -> " := if_neg (by simpa using hpending)
    rw [List.nil_append, runLines_last (absurd · hpending) hlast, hprompt]
    simp [keptText]
  | cons line front ih =>
    obtain ⟨hline, hfront⟩ := List.forall_mem_cons.1 hfront
    have hprompt : s.prompt = "       -> " := if_neg (by simpa using hpending)
    have hstep : s.step (clocks 0) line =
        .go { s with pending := s.pending ++ keptLine line } [] :=
      step_of_middle (absurd · hpending) hline
    have hkept : s.pending ++ keptLine line ≠ [] := by simp [hpending]
    rw [List.cons_append, runLines_of_go hstep, hprompt, ih hkept hfront, Transcript.after_after]
    simp [answers, keptText, List.replicate_succ, Nat.add_assoc]

/-- The lines of an entry run what is kept of them, once. -/
theorem runLines_entry {lines : List (List Char)} (hpending : s.pending = []) (h : IsEntry lines)
    (more : List (List Char)) : s.runLines clocks (lines ++ more) =
      s.runsOnce clocks (lines.length - 1) (keptText lines) more := by
  have hprompt : s.prompt = "querylab> " := if_pos (by simp [hpending])
  obtain ⟨last, hmem, hlast⟩ := h.last
  obtain ⟨front, rfl⟩ := List.getLast?_eq_some_iff.1 hmem
  have hmiddle := h.middle
  rw [List.dropLast_concat] at hmiddle
  obtain ⟨first, hfirst, hne, hcommand⟩ := h.first
  rw [List.append_assoc, List.singleton_append, List.length_append, runsOnce]
  cases front with
  | nil =>
    cases hfirst
    rw [List.nil_append, runLines_last (fun _ => hcommand) hlast, hprompt, hpending]
    simp [keptText]
  | cons line front =>
    cases hfirst
    obtain ⟨hline, hfront⟩ := List.forall_mem_cons.1 hmiddle
    have hstep : s.step (clocks 0) first = .go { s with pending := keptLine first } [] := by
      rw [step_of_middle (fun _ => hcommand) hline, hpending, List.nil_append]
    have hkept : keptLine first ≠ [] := by simp [keptLine, hne]
    rw [List.cons_append, runLines_of_go hstep, hprompt, runLines_rest hkept hfront hlast,
      Transcript.after_after]
    simp [answers, keptText, Nat.add_assoc]

end

end Shell

/-- **What the shell runs.**  With nothing pending, the lines of a text that are one entry run one
    text, once.  It has the tokens of the text, with every quoted text squeezed; so it has the same
    tokens if and only if no quoted text has a newline beside another blank, and then it spells the
    same statement and does the same. -/
theorem shell_runs_entry (clocks : Nat → Nat → Timestamp) (s : Shell) (hpending : s.pending = [])
    (text : List Char) (h : IsEntry (splitLines text)) (more : List (List Char)) :
    let kept := keptText (splitLines text)
    s.runLines clocks (splitLines text ++ more) =
        s.runsOnce clocks ((splitLines text).length - 1) kept more ∧
      kindsIn kept = (kindsIn text).map (List.map TokenKind.squeezed) ∧
      (kindsIn kept = kindsIn text ↔ ∀ kinds, kindsIn text = some kinds →
        ∀ value, .text value ∈ kinds → Unbroken value.toList) ∧
      (kindsIn kept = kindsIn text → (parse kept).toOption = (parse text).toOption ∧
        ∀ clock, (s.engine.run clock kept).2 = (s.engine.run clock text).2 ∧
          ∀ statement, parse text = .ok statement →
            s.engine.run clock kept = s.engine.run clock text) := by
  refine ⟨Shell.runLines_entry hpending h more, kindsIn_keptText text, ?_, fun hkinds => ?_⟩
  · rw [keptText_splitLines, kindsIn_trimLeft]
    exact kindsIn_entered_eq_iff
  · have hparse := parse_congr hkinds
    exact ⟨hparse, fun clock => run_congr hparse clock s.engine⟩

/-- A shell that writes results as JSON, over a store with an empty table of texts. -/
def textsShell : Shell :=
  let (_, engine) :=
    Engine.run (fun _ => ⟨"", .date, 0⟩) ⟨.standard, .empty⟩ "CREATE TABLE t (v TEXT)".toList
  ⟨engine, true, []⟩

/-- A blank line, a `;` inside of a comment, and a quoted text over two lines. -/
theorem shell_runs_entry_quoted :
    let clocks : Nat → Nat → Timestamp := fun _ _ => ⟨"", .date, 0⟩
    let text := "  INSERT INTO t -- one; row\n\n VALUES\t\n ('a; b\nc') ; ".toList
    let more := ["SELECT * FROM t;".toList]
    textsShell.pending = [] ∧ IsEntry (splitLines text) ∧
      textsShell.runLines clocks (splitLines text ++ more) =
        textsShell.runsOnce clocks 4 text more := by
  intro clocks text more
  have hentry : IsEntry (splitLines text) :=
    ⟨⟨_, rfl, by decide +kernel, by decide +kernel⟩, ⟨_, rfl, by decide +kernel⟩,
      by decide +kernel⟩
  have hkinds : kindsIn (keptText (splitLines text)) = kindsIn text := by decide +kernel
  have hparse : (parse text).toOption = some (.insert "t" none [[.text "a; b\nc"]]) := by
    decide +kernel
  obtain ⟨hrun, -⟩ := shell_runs_entry clocks textsShell rfl text hentry more
  exact ⟨rfl, hentry, hrun.trans (Shell.runsOnce_congr hkinds hparse clocks textsShell 4 more)⟩

/-- A text over two lines loses the blanks around its newline: what is written is not what a text
    with the same tokens would give. -/
theorem shell_alters_text : ¬ ∀ (clocks : Nat → Nat → Timestamp) (s : Shell) (text : List Char)
    (more : List (List Char)), s.pending = [] → IsEntry (splitLines text) →
    ∃ kept, kindsIn kept = kindsIn text ∧ s.runLines clocks (splitLines text ++ more) =
      s.runsOnce clocks ((splitLines text).length - 1) kept more := by
  intro h
  let clocks : Nat → Nat → Timestamp := fun _ _ => ⟨"", .date, 0⟩
  let text := "INSERT INTO t VALUES ('a \n b');".toList
  let more := ["SELECT * FROM t;".toList]
  have hentry : IsEntry (splitLines text) :=
    ⟨⟨_, rfl, by decide +kernel, by decide +kernel⟩, ⟨_, rfl, by decide +kernel⟩,
      by decide +kernel⟩
  obtain ⟨kept, hkinds, hrun⟩ := h clocks textsShell text more rfl hentry
  have hparse : (parse text).toOption = some (.insert "t" none [[.text "a \n b"]]) := by
    decide +kernel
  have hne : textsShell.runLines clocks (splitLines text ++ more) ≠
      textsShell.runsOnce clocks 1 text more := by
    decide +kernel
  exact hne (hrun.trans (Shell.runsOnce_congr hkinds hparse clocks textsShell 1 more))

end PocketSql
