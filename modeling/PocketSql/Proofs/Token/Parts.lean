/-
  Where a part of a token list is cut, by the kinds of its tokens.

  * `Whole stops low kinds`: tokens of these kinds stay in one piece if at least `low` parentheses
    are open around them;
  * `Whole.append`, `Whole.plain`, `Whole.enclosed`: how such kinds are made;
  * `splitOutside_of_whole`: tokens that stay in one piece are cut off before a stop.
-/
import PocketSql.Proofs.Predicate.Clause
import PocketSql.Proofs.Token.Writing

namespace PocketSql

variable {stops : TokenKind → Bool} {low : Nat} {kinds ks ls : List TokenKind}

/-- Tokens of these kinds are not cut, and leave as many parentheses open as before. -/
def Whole (stops : TokenKind → Bool) (low : Nat) (kinds : List TokenKind) : Prop :=
  ∀ depth tokens rest, low ≤ depth → kindsOf tokens = kinds →
    splitOutside stops depth (tokens ++ rest) =
      (tokens ++ (splitOutside stops depth rest).1, (splitOutside stops depth rest).2)

theorem splitOutside_cons {depth : Nat} {t : Token} {rest : List Token}
    (h : depth = 0 → stops t.kind = false) :
    splitOutside stops depth (t :: rest) =
      (t :: (splitOutside stops (depthAfter depth t.kind) rest).1,
        (splitOutside stops (depthAfter depth t.kind) rest).2) := by
  have hgo : ¬ (decide (depth = 0) && stops t.kind) = true := by
    intro hstop
    rw [Bool.and_eq_true, decide_eq_true_iff] at hstop
    cases (h hstop.1).symm.trans hstop.2
  rw [splitOutside, if_neg hgo]

namespace Whole

theorem mono (h : Whole stops 0 kinds) : Whole stops low kinds :=
  fun depth tokens rest _ hkinds => h depth tokens rest (Nat.zero_le depth) hkinds

theorem nil : Whole stops low [] := by
  intro depth tokens rest _ hkinds
  rw [List.map_eq_nil_iff.1 hkinds]
  rfl

theorem append (h : Whole stops low ks) (h' : Whole stops low ls) : Whole stops low (ks ++ ls) := by
  intro depth tokens rest hdepth hkinds
  obtain ⟨first, second, rfl, hfirst, hsecond⟩ := kindsOf_eq_append hkinds
  rw [List.append_assoc, h depth first _ hdepth hfirst, h' depth second rest hdepth hsecond,
    List.append_assoc]

/-- A token that is no parenthesis stays with what follows it, if nothing stops at it or a
    parenthesis is open. -/
theorem cons {kind : TokenKind} (hleft : kind ≠ .sign .leftParen)
    (hright : kind ≠ .sign .rightParen) (hstop : low = 0 → stops kind = false)
    (h : Whole stops low kinds) : Whole stops low (kind :: kinds) := by
  intro depth tokens rest hdepth hkinds
  obtain ⟨place, others, rfl, hothers⟩ := kindsOf_eq_cons hkinds
  have hsame : depthAfter depth kind = depth := by simp [depthAfter, hleft, hright]
  rw [List.cons_append, splitOutside_cons fun hzero => hstop (by omega), hsame,
    h depth others rest hdepth hothers]
  rfl

theorem plain (h : ∀ kind ∈ kinds, kind ≠ .sign .leftParen ∧ kind ≠ .sign .rightParen ∧
    (low = 0 → stops kind = false)) : Whole stops low kinds := by
  induction kinds with
  | nil => exact nil
  | cons kind kinds ih =>
    obtain ⟨⟨hleft, hright, hstop⟩, hrest⟩ := List.forall_mem_cons.1 h
    exact cons hleft hright hstop (ih hrest)

/-- What stands in parentheses stays in one piece, also if it would be cut outside of them. -/
theorem enclosed (hstop : stops (.sign .leftParen) = false) (h : Whole stops 1 kinds) :
    Whole stops 0 (.sign .leftParen :: (kinds ++ [.sign .rightParen])) := by
  intro depth tokens rest _ hkinds
  obtain ⟨place, _, rfl, hbody⟩ := kindsOf_eq_cons hkinds
  obtain ⟨inside, _, rfl, hinside, hclose⟩ := kindsOf_eq_append hbody
  obtain ⟨closePlace, rfl⟩ := kindsOf_eq_singleton hclose
  have hopen : depthAfter depth (.sign .leftParen) = depth + 1 := rfl
  have hclosed : splitOutside stops (depth + 1) (⟨.sign .rightParen, closePlace⟩ :: rest) =
      (⟨.sign .rightParen, closePlace⟩ :: (splitOutside stops depth rest).1,
        (splitOutside stops depth rest).2) := splitOutside_cons (nomatch ·)
  rw [List.cons_append, splitOutside_cons fun _ => hstop, hopen, List.append_assoc,
    h (depth + 1) inside _ (Nat.le_add_left 1 depth) hinside, List.singleton_append, hclosed]
  simp

end Whole

/-- Tokens that stay in one piece are cut off before nothing or a token at which a part stops. -/
theorem splitOutside_of_whole {tokens rest : List Token} (h : Whole stops 0 (kindsOf tokens))
    (hrest : ∀ t ∈ rest.head?, stops t.kind = true) :
    splitOutside stops 0 (tokens ++ rest) = (tokens, rest) := by
  have hcut : splitOutside stops 0 rest = ([], rest) := by
    cases rest with
    | nil => rfl
    | cons t rest => simp [splitOutside, hrest t rfl]
  rw [h 0 tokens rest (Nat.le_refl 0) rfl, hcut, List.append_nil]

/-! ## Conditions -/

/-- A part of a statement may be cut at this token, or the token is a parenthesis. -/
def isCut (kind : TokenKind) : Bool :=
  endsClause kind ||
    [.keyword .from_, .sign .comma, .sign .leftParen, .sign .rightParen].contains kind

theorem Whole.uncut (hstops : ∀ kind, stops kind = true → isCut kind = true)
    (h : ∀ kind ∈ kinds, isCut kind = false) : Whole stops low kinds := by
  refine Whole.plain fun kind hkind => ?_
  have huncut := h kind hkind
  refine ⟨?_, ?_, fun _ => ?_⟩
  · rintro rfl; cases huncut
  · rintro rfl; cases huncut
  · exact Bool.eq_false_iff.2 fun hstop => Bool.eq_false_iff.1 huncut (hstops kind hstop)

theorem SpellsColumn.uncut {column : String} (h : SpellsColumn column kinds) :
    ∀ kind ∈ kinds, isCut kind = false := by
  cases h <;> simp [isCut, endsClause]

theorem SpellsLiteral.uncut {v : Value} (h : SpellsLiteral kinds v) :
    ∀ kind ∈ kinds, isCut kind = Bool.false := by
  cases h <;> simp [isCut, endsClause]

/-- A clause that is understood is not cut. -/
theorem Derives.whole {level : GrammarLevel} {p : Predicate} {n d : Nat}
    (h : Derives level kinds p n d) : Whole endsClause 0 kinds := by
  have hstops : ∀ kind, endsClause kind = true → isCut kind = true := fun kind hkind => by
    rw [isCut, hkind, Bool.true_or]
  induction h with
  | conjunction _ ih | operand _ ih => exact ih
  | or _ _ ih₁ ih₂ | and _ _ ih₁ ih₂ =>
    exact ih₁.append (.cons (by simp) (by simp) (fun _ => rfl) ih₂)
  | not _ ih => exact .cons (by simp) (by simp) (fun _ => rfl) ih
  | parentheses _ ih => exact .enclosed rfl ih.mono
  | isNull hcolumn | isNotNull hcolumn =>
    refine (Whole.uncut hstops hcolumn.uncut).append (.uncut hstops ?_)
    simp [isCut, endsClause]
  | @compare _ _ _ s _ _ hcolumn hop hliteral =>
    have hsign : isCut (.sign s) = false := by
      cases s <;> first | rfl | cases hop
    refine (Whole.uncut hstops hcolumn.uncut).append (.uncut hstops ?_)
    exact List.forall_mem_cons.2 ⟨hsign, hliteral.uncut⟩

end PocketSql
