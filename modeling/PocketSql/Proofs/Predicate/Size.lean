/-
  How large the condition of a statement can be.

  * `Predicate.Path` gives the nodes of a condition on the way from its root to a leaf;
  * `Derives.tests_eq`, `Derives.pathWithin`: a condition of the grammar has the tests that the
    grammar counts; on a path of it stand no more negations than its nesting, and no more nodes than
    its tests and its nesting together;
  * `Predicate.Recursion`: a function by recursion over conditions; `Recursion.runWithin_eq`: a
    limit on the calls inside of one another makes no difference if no path is longer;
  * `parse_condition_bounded`: what this says of the condition of a statement, whatever its text.
-/
import PocketSql.Proofs.Statement.ClauseRemoval

namespace PocketSql

namespace Predicate

/-! ## Paths -/

/-- A negation. -/
def isNot : Predicate → Bool
  | not _ => true
  | _ => false

/-- The nodes of a condition from its root to a leaf, both included. -/
inductive Path : Predicate → List Predicate → Prop
  | compare {column op v} : Path (compare column op v) [compare column op v]
  | isNull {column negated} : Path (isNull column negated) [isNull column negated]
  | unsupported {text} : Path (unsupported text) [unsupported text]
  | not {inner path} : Path inner path → Path (not inner) (not inner :: path)
  | andLeft {left right path} : Path left path → Path (and left right) (and left right :: path)
  | andRight {left right path} : Path right path → Path (and left right) (and left right :: path)
  | orLeft {left right path} : Path left path → Path (or left right) (or left right :: path)
  | orRight {left right path} : Path right path → Path (or left right) (or left right :: path)

theorem exists_path (p : Predicate) : ∃ path, p.Path path := by
  induction p with
  | compare => exact ⟨_, .compare⟩
  | isNull => exact ⟨_, .isNull⟩
  | unsupported => exact ⟨_, .unsupported⟩
  | not inner ih =>
    obtain ⟨path, hpath⟩ := ih
    exact ⟨_, .not hpath⟩
  | and left right ihl _ =>
    obtain ⟨path, hpath⟩ := ihl
    exact ⟨_, .andLeft hpath⟩
  | or left right ihl _ =>
    obtain ⟨path, hpath⟩ := ihl
    exact ⟨_, .orLeft hpath⟩

/-- The paths of a part are shorter than those that go through it. -/
theorem path_part_le {whole part : Predicate} {length : Nat}
    (hpart : ∀ path, part.Path path → whole.Path (whole :: path))
    (h : ∀ path, whole.Path path → path.length ≤ length) :
    ∃ less, length = less + 1 ∧ ∀ path, part.Path path → path.length ≤ less := by
  have hlonger : ∀ path, part.Path path → path.length + 1 ≤ length :=
    fun path hpath => h _ (hpart path hpath)
  obtain ⟨path, hpath⟩ := part.exists_path
  refine ⟨length - 1, ?_, fun path hpath => Nat.le_sub_of_add_le (hlonger path hpath)⟩
  have := hlonger path hpath
  omega

/-! ## Recursions -/

/-- A function by recursion over conditions: what it gives for a leaf, and what it makes of the
    results for the parts. -/
structure Recursion (α : Type) where
  leaf : Predicate → α
  not : α → α
  and : α → α → α
  or : α → α → α

namespace Recursion

variable {α : Type}

/-- The function. -/
def run (r : Recursion α) : Predicate → α
  | .not inner => r.not (r.run inner)
  | .and left right => r.and (r.run left) (r.run right)
  | .or left right => r.or (r.run left) (r.run right)
  | p => r.leaf p

/-- The function, with at most so many calls inside of one another; nothing if it takes more. -/
def runWithin (r : Recursion α) : Nat → Predicate → Option α
  | 0, _ => none
  | calls + 1, .not inner => (r.runWithin calls inner).map r.not
  | calls + 1, .and left right => do
    some (r.and (← r.runWithin calls left) (← r.runWithin calls right))
  | calls + 1, .or left right => do
    some (r.or (← r.runWithin calls left) (← r.runWithin calls right))
  | _ + 1, p => some (r.leaf p)

/-- Calls stand inside of one another as the nodes do on a path. -/
theorem runWithin_eq (r : Recursion α) {p : Predicate} {calls : Nat}
    (h : ∀ path, p.Path path → path.length ≤ calls) : r.runWithin calls p = some (r.run p) := by
  induction p generalizing calls with
  | compare column op v =>
    obtain ⟨calls, rfl⟩ := Nat.exists_eq_add_one.2 (h _ .compare)
    rfl
  | isNull column negated =>
    obtain ⟨calls, rfl⟩ := Nat.exists_eq_add_one.2 (h _ .isNull)
    rfl
  | unsupported text =>
    obtain ⟨calls, rfl⟩ := Nat.exists_eq_add_one.2 (h _ .unsupported)
    rfl
  | not inner ih =>
    obtain ⟨less, rfl, hinner⟩ := path_part_le (fun _ => .not) h
    simp only [runWithin, run, ih hinner, Option.map_some]
  | and left right ihl ihr =>
    obtain ⟨less, rfl, hleft⟩ := path_part_le (fun _ => .andLeft) h
    obtain ⟨_, hless, hright⟩ := path_part_le (fun _ => .andRight) h
    obtain rfl := Nat.succ.inj hless
    simp [runWithin, run, ihl hleft, ihr hright]
  | or left right ihl ihr =>
    obtain ⟨less, rfl, hleft⟩ := path_part_le (fun _ => .orLeft) h
    obtain ⟨_, hless, hright⟩ := path_part_le (fun _ => .orRight) h
    obtain rfl := Nat.succ.inj hless
    simp [runWithin, run, ihl hleft, ihr hright]

/-- What satisfies the equations of a recursion is that recursion. -/
theorem run_eq {r : Recursion α} {f : Predicate → α} (hleaf : ∀ p, r.leaf p = f p)
    (hnot : ∀ p, r.not (f p) = f (.not p)) (hand : ∀ p q, r.and (f p) (f q) = f (.and p q))
    (hor : ∀ p q, r.or (f p) (f q) = f (.or p q)) (p : Predicate) : r.run p = f p := by
  induction p with
  | compare | isNull | unsupported => exact hleaf _
  | not inner ih => rw [run, ih, hnot]
  | and left right ihl ihr => rw [run, ihl, ihr, hand]
  | or left right ihl ihr => rw [run, ihl, ihr, hor]

end Recursion

/-- The recursion that decides whether a row satisfies a condition. -/
def evaluation (row : Row) : Recursion Bool where
  leaf p := p.holds row
  not b := !b
  and a b := a && b
  or a b := a || b

/-- The recursion that lists the columns that a condition reads. -/
def columnList : Recursion (List String) where
  leaf := columns
  not names := names
  and names others := names ++ others
  or names others := names ++ others

/-- The recursion that finds the first part of a condition that is not understood. -/
def firstUnsupported : Recursion (Option String) where
  leaf := unsupported?
  not found := found
  and found other := found.or other
  or found other := found.or other

theorem run_evaluation (row : Row) (p : Predicate) : (evaluation row).run p = p.holds row :=
  Recursion.run_eq (fun _ => rfl) (fun _ => rfl) (fun _ _ => rfl) (fun _ _ => rfl) p

theorem run_columnList (p : Predicate) : columnList.run p = p.columns :=
  Recursion.run_eq (fun _ => rfl) (fun _ => rfl) (fun _ _ => rfl) (fun _ _ => rfl) p

theorem run_firstUnsupported (p : Predicate) : firstUnsupported.run p = p.unsupported? :=
  Recursion.run_eq (fun _ => rfl) (fun _ => rfl) (fun _ _ => rfl) (fun _ _ => rfl) p

end Predicate

/-! ## Conditions of the grammar -/

section
variable {level : GrammarLevel} {kinds : List TokenKind} {p : Predicate} {n d : Nat}

theorem Derives.tests_eq (h : Derives level kinds p n d) : p.tests = n := by
  induction h with
  | isNull | isNotNull | compare => rfl
  | conjunction _ ih | operand _ ih | parentheses _ ih => exact ih
  | not _ ih => exact ih
  | or _ _ ih₁ ih₂ | and _ _ ih₁ ih₂ => rw [Predicate.tests, ih₁, ih₂]

/-- The nodes on a path of a condition that is understood, with some tests and nesting. -/
structure Predicate.PathWithin (tests nesting : Nat) (path : List Predicate) : Prop where
  understood : ∀ q ∈ path, ∀ text, q ≠ .unsupported text
  negations_le : path.countP isNot ≤ nesting
  length_le : path.length ≤ tests + nesting

namespace Predicate.PathWithin

variable {path : List Predicate} {q : Predicate} {n' d' : Nat}

theorem mono (h : PathWithin n d path) (hd : d ≤ d') : PathWithin n d' path where
  understood := h.understood
  negations_le := Nat.le_trans h.negations_le hd
  length_le := Nat.le_trans h.length_le (Nat.add_le_add_left hd n)

theorem negation (h : PathWithin n d path) (inner : Predicate) :
    PathWithin n (d + 1) (.not inner :: path) where
  understood := List.forall_mem_cons.2 ⟨by simp, h.understood⟩
  negations_le := by
    rw [List.countP_cons_of_pos rfl]
    exact Nat.succ_le_succ h.negations_le
  length_le := Nat.succ_le_succ h.length_le

/-- A node that is no negation takes the room of a test that stands elsewhere. -/
theorem connective (h : PathWithin n d path) (hnot : q.isNot = false)
    (hq : ∀ text, q ≠ .unsupported text) (hn : n < n') (hd : d ≤ d') :
    PathWithin n' d' (q :: path) where
  understood := List.forall_mem_cons.2 ⟨hq, h.understood⟩
  negations_le := by
    rw [List.countP_cons_of_neg (by simp [hnot])]
    exact Nat.le_trans h.negations_le hd
  length_le := by
    have hlength := h.length_le
    rw [List.length_cons]
    omega

end Predicate.PathWithin

/-- On a path of a condition of the grammar, every negation is one of those that the nesting counts,
    and every connective has a test on its other side. -/
theorem Derives.pathWithin (h : Derives level kinds p n d) {path : List Predicate}
    (hpath : p.Path path) : Predicate.PathWithin n d path := by
  induction h generalizing path with
  | conjunction _ ih | operand _ ih => exact ih hpath
  | isNull | isNotNull | compare =>
    cases hpath
    exact ⟨by simp, Nat.le_refl 0, Nat.le_refl 1⟩
  | parentheses _ ih => exact (ih hpath).mono (Nat.le_succ _)
  | not _ ih =>
    cases hpath with
    | not hinner => exact (ih hinner).negation _
  | or h₁ h₂ ih₁ ih₂ =>
    have hleft := h₁.tests_pos
    have hright := h₂.tests_pos
    cases hpath with
    | orLeft hpath =>
      exact (ih₁ hpath).connective rfl (by simp) (by omega) (Nat.le_max_left _ _)
    | orRight hpath =>
      exact (ih₂ hpath).connective rfl (by simp) (by omega) (Nat.le_max_right _ _)
  | and h₁ h₂ ih₁ ih₂ =>
    have hleft := h₁.tests_pos
    have hright := h₂.tests_pos
    cases hpath with
    | andLeft hpath =>
      exact (ih₁ hpath).connective rfl (by simp) (by omega) (Nat.le_max_left _ _)
    | andRight hpath =>
      exact (ih₂ hpath).connective rfl (by simp) (by omega) (Nat.le_max_right _ _)

end

/-! ## Conditions of statements -/

/-- A condition that is read from the tokens of a clause, if there is one. -/
def FromClause (condition : Option Predicate) : Prop :=
  ∀ p, condition = some p → ∃ clause, p = clausePredicate clause

theorem parse_fromClause {text : List Char} {statement : Statement}
    (h : parse text = .ok statement) : FromClause statement.condition := by
  intro p hp
  obtain ⟨l, -, hparse⟩ := parse_eq_ok.1 h
  obtain ⟨_, clause, _, -, hclause, -⟩ := parseTokens_removes hparse hp
  exact ⟨clause, hclause⟩

/-- **Conditions have bounded size.**  The condition of a statement that a text spells, however long
    the text, is one part that is not understood, or it has no such part anywhere, at most 256
    tests, and on every path at most 64 negations and 320 nodes.  So a recursion over it, as
    evaluation, the list of its columns and the search for a part that is not understood are, never
    has more than 320 calls inside of one another. -/
theorem parse_condition_bounded {text : List Char} {statement : Statement} {p : Predicate}
    (h : parse text = .ok statement) (hp : statement.condition = some p) :
    ((∃ clause, p = .unsupported clause) ∨
      (p.tests ≤ 256 ∧ ∀ path, p.Path path →
        (∀ q ∈ path, ∀ clause, q ≠ .unsupported clause) ∧
        path.countP Predicate.isNot ≤ 64 ∧ path.length ≤ 320)) ∧
    (∀ (α : Type) (r : Predicate.Recursion α), r.runWithin 320 p = some (r.run p)) ∧
    (∀ row, (Predicate.evaluation row).runWithin 320 p = some (p.holds row)) ∧
    Predicate.columnList.runWithin 320 p = some p.columns ∧
    Predicate.firstUnsupported.runWithin 320 p = some p.unsupported? := by
  have hsize : (∃ clause, p = .unsupported clause) ∨
      (p.tests ≤ 256 ∧ ∀ path, p.Path path →
        (∀ q ∈ path, ∀ clause, q ≠ .unsupported clause) ∧
        path.countP Predicate.isNot ≤ 64 ∧ path.length ≤ 320) := by
    obtain ⟨clause, rfl⟩ := parse_fromClause h p hp
    by_cases hspells : ∃ q, SpellsClause (kindsOf clause) q
    · obtain ⟨q, hq⟩ := hspells
      obtain ⟨n, d, hd, htests, hnesting⟩ := id hq
      rw [clausePredicate_of_spells hq]
      refine .inr ⟨hd.tests_eq ▸ htests, fun path hpath => ?_⟩
      obtain ⟨hunderstood, hnot, hlength⟩ := hd.pathWithin hpath
      exact ⟨hunderstood, Nat.le_trans hnot hnesting,
        Nat.le_trans hlength (Nat.add_le_add htests hnesting)⟩
    · exact .inl ⟨_, clausePredicate_of_not_spells (not_exists.1 hspells)⟩
  have hlength : ∀ path, p.Path path → path.length ≤ 320 := by
    intro path hpath
    rcases hsize with ⟨clause, rfl⟩ | ⟨-, hpaths⟩
    · cases hpath
      exact Nat.le_add_left 1 319
    · exact (hpaths path hpath).2.2
  have hrun : ∀ (α : Type) (r : Predicate.Recursion α), r.runWithin 320 p = some (r.run p) :=
    fun _ r => r.runWithin_eq hlength
  refine ⟨hsize, hrun, fun row => ?_, ?_, ?_⟩
  · rw [hrun, Predicate.run_evaluation]
  · rw [hrun, Predicate.run_columnList]
  · rw [hrun, Predicate.run_firstUnsupported]

/-- Parentheses leave no node, and each negation leaves one. -/
theorem parse_condition_bounded_nested :
    let text := "SELECT a FROM t WHERE NOT ((b = 1 OR NOT NOT c IS NULL) AND (d <> 'x')) LIMIT 5"
    let p : Predicate := .not (.and
      (.or (.compare "b" .eq (.integer 1)) (.not (.not (.isNull "c" false))))
      (.compare "d" .ne (.text "x")))
    (parse text.toList).toOption =
        some (.select ⟨.columns ["a"], "t", some p, [], some 5, none⟩) ∧
      p.tests ≤ 256 ∧
      [p, .and (.or (.compare "b" .eq (.integer 1)) (.not (.not (.isNull "c" false))))
        (.compare "d" .ne (.text "x")), .compare "d" .ne (.text "x")].countP Predicate.isNot ≤ 64 ∧
      Predicate.columnList.runWithin 320 p = some ["b", "c", "d"] := by
  intro text p
  have hparse : (parse text.toList).toOption =
      some (.select ⟨.columns ["a"], "t", some p, [], some 5, none⟩) := by decide +kernel
  obtain ⟨hsize, -, -, hcolumns, -⟩ := parse_condition_bounded (toOption_eq_some.1 hparse) rfl
  rcases hsize with ⟨clause, hclause⟩ | ⟨htests, hpaths⟩
  · simp [p] at hclause
  · exact ⟨hparse, htests, (hpaths _ (.not (.andRight .compare))).2.1, hcolumns⟩

end PocketSql
