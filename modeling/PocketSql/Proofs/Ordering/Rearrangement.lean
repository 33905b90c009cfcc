/-
  What sorting may do with the entries of a list.

  The statements come with a condition `ranked`, under which the comparison says of any two entries
  what their places on a line say (`Ranked`).  Without it nothing but the entries is kept.

  * `Rearranged`: the entries are the given ones, and if they are ranked, those of one place stand
    in the order in which they were given;
  * `Sorted`: so they do, and if they are ranked, they stand in the order of their places;
  * `Sorted.unique`: there is one such list only;
  * `Gives`: an outcome satisfies something, and is there if the entries are ranked.
-/
import Mathlib.Order.Lattice
import PocketSql.Ordering

namespace PocketSql

variable {α β Place : Type} {ranked : Prop}

/-! ## Outcomes -/

/-- An outcome satisfies something; it is missing only if a condition does not hold. -/
def Gives (ranked : Prop) (post : β → Prop) : Option β → Prop
  | some b => post b
  | none => ¬ ranked

namespace Gives

variable {post : α → Prop} {post' : β → Prop} {outcome : Option α}

theorem bind {f : α → Option β} (h : Gives ranked post outcome)
    (hf : ∀ a, post a → Gives ranked post' (f a)) : Gives ranked post' (outcome >>= f) := by
  cases outcome with
  | none => exact h
  | some a => exact hf a h

theorem map {f : α → β} (h : Gives ranked post outcome) (hf : ∀ a, post a → post' (f a)) :
    Gives ranked post' (outcome.map f) := by
  cases outcome with
  | none => exact h
  | some a => exact hf a h

theorem mono {weaker : α → Prop} (h : Gives ranked post outcome)
    (hweaker : ∀ a, post a → weaker a) : Gives ranked weaker outcome := by
  cases outcome with
  | none => exact h
  | some a => exact hweaker a h

end Gives

/-! ## Rearrangements -/

/-- Two lists have the same entries of each place, in the same order. -/
def Agree (place : α → Place) (xs ys : List α) : Prop :=
  ∀ p : α → Bool, (∀ x y, p x = true → p y = true → place x = place y) → ys.filter p = xs.filter p

/-- Entries in some order; if they are ranked, those of one place in the order in which they were
    given. -/
structure Rearranged (ranked : Prop) (place : α → Place) (xs ys : List α) : Prop where
  perm : ys.Perm xs
  agree : ranked → Agree place xs ys

section
variable {place : α → Place} {xs xs' ys ys' zs : List α} {x : α}

namespace Agree

/-- They have the same entries of the place of an entry. -/
theorem filter_peers [DecidableEq Place] (h : Agree place xs ys) (x : α) :
    ys.filter (fun y => decide (place y = place x)) = xs.filter fun y => decide (place y = place x) :=
  h _ fun _ _ ha hb => (of_decide_eq_true ha).trans (of_decide_eq_true hb).symm

theorem mem_iff (h : Agree place xs ys) : x ∈ ys ↔ x ∈ xs := by
  classical
  have hx := congrArg (x ∈ ·) (h.filter_peers x)
  simpa using hx

theorem of_cons (h : Agree place (x :: xs) (x :: ys)) : Agree place xs ys := by
  intro p hp
  have hboth := h p hp
  rw [List.filter_cons, List.filter_cons] at hboth
  split at hboth
  · exact (List.cons.inj hboth).2
  · exact hboth

end Agree

namespace Rearranged

@[refl]
theorem refl (xs : List α) : Rearranged ranked place xs xs :=
  ⟨.refl _, fun _ _ _ => rfl⟩

theorem of_eq (h : xs = ys) : Rearranged ranked place xs ys :=
  h ▸ refl xs

theorem trans (h : Rearranged ranked place xs ys) (h' : Rearranged ranked place ys zs) :
    Rearranged ranked place xs zs :=
  ⟨h'.perm.trans h.perm, fun hr p hp => (h'.agree hr p hp).trans (h.agree hr p hp)⟩

theorem append (h : Rearranged ranked place xs ys) (h' : Rearranged ranked place xs' ys') :
    Rearranged ranked place (xs ++ xs') (ys ++ ys') := by
  refine ⟨h.perm.append h'.perm, fun hr p hp => ?_⟩
  rw [List.filter_append, List.filter_append, h.agree hr p hp, h'.agree hr p hp]

theorem cons (x : α) (h : Rearranged ranked place xs ys) :
    Rearranged ranked place (x :: xs) (x :: ys) :=
  (refl [x]).append h

theorem reverse (h : Rearranged ranked place xs ys) :
    Rearranged ranked place xs.reverse ys.reverse := by
  refine ⟨((List.reverse_perm ys).trans h.perm).trans (List.reverse_perm xs).symm, fun hr p hp => ?_⟩
  rw [List.filter_reverse, List.filter_reverse, h.agree hr p hp]

/-- Neighbours that share no place may change sides. -/
theorem swap (h : ranked → ∀ x ∈ xs, ∀ y ∈ ys, place x ≠ place y) :
    Rearranged ranked place (xs ++ ys) (ys ++ xs) := by
  refine ⟨List.perm_append_comm, fun hr p hp => ?_⟩
  rw [List.filter_append, List.filter_append]
  by_cases hnil : xs.filter p = []
  · rw [hnil, List.append_nil, List.nil_append]
  · obtain ⟨x, hx⟩ := List.exists_mem_of_ne_nil _ hnil
    obtain ⟨hx, hpx⟩ := List.mem_filter.1 hx
    have hys : ys.filter p = [] :=
      List.filter_eq_nil_iff.2 fun y hy hpy => h hr x hx y hy (hp x y hpx hpy)
    rw [hys, List.append_nil, List.nil_append]

theorem swap_head {y : α} (h : ranked → place x ≠ place y) (xs : List α) :
    Rearranged ranked place (x :: y :: xs) (y :: x :: xs) := by
  have hswap : Rearranged ranked place ([x] ++ [y]) ([y] ++ [x]) := swap (by simpa using h)
  exact hswap.append (refl xs)

/-- The entries that satisfy something may go before the others if no two of them share a place. -/
theorem partition (p : α → Bool)
    (h : ranked → ∀ x ∈ xs, ∀ y ∈ xs, p x = true → p y = false → place x ≠ place y) :
    Rearranged ranked place xs (xs.filter p ++ xs.filter fun x => !p x) := by
  induction xs with
  | nil => exact refl []
  | cons x xs ih =>
    have htail := (ih fun hr y hy z hz =>
      h hr y (List.mem_cons_of_mem x hy) z (List.mem_cons_of_mem x hz)).cons x
    cases hx : p x with
    | true =>
      rw [List.filter_cons_of_pos hx, List.filter_cons_of_neg (by simp [hx])]
      exact htail
    | false =>
      rw [List.filter_cons_of_neg (by simp [hx]), List.filter_cons_of_pos (by simp [hx])]
      have hswap : Rearranged ranked place ([x] ++ xs.filter p) (xs.filter p ++ [x]) := by
        refine swap fun hr y hy z hz => ?_
        obtain ⟨hz, hpz⟩ := List.mem_filter.1 hz
        rw [List.mem_singleton.1 hy]
        exact (h hr z (List.mem_cons_of_mem x hz) x List.mem_cons_self hpz hx).symm
      have hall := htail.trans (hswap.append (refl (xs.filter fun x => !p x)))
      rwa [List.append_assoc, List.singleton_append] at hall

/-- Entries of which no two share a place may be turned around. -/
theorem turned (h : ranked → xs.Pairwise fun x y => place x ≠ place y) :
    Rearranged ranked place xs xs.reverse := by
  induction xs with
  | nil => exact refl []
  | cons x xs ih =>
    have hswap : Rearranged ranked place ([x] ++ xs.reverse) (xs.reverse ++ [x]) := by
      refine swap fun hr y hy z hz => ?_
      rw [List.mem_singleton.1 hy]
      exact List.rel_of_pairwise_cons (h hr) (List.mem_reverse.1 hz)
    rw [List.reverse_cons]
    exact ((ih fun hr => (h hr).of_cons).cons x).trans hswap

theorem map {f : β → α} {bs cs : List β} (h : Rearranged ranked (place ∘ f) bs cs) :
    Rearranged ranked place (bs.map f) (cs.map f) := by
  refine ⟨h.perm.map f, fun hr p hp => ?_⟩
  rw [List.filter_map, List.filter_map, h.agree hr (p ∘ f) fun x y hx hy => hp _ _ hx hy]

theorem mem_iff (h : Rearranged ranked place xs ys) : x ∈ ys ↔ x ∈ xs :=
  h.perm.mem_iff

theorem subset {whole : List α} (h : Rearranged ranked place xs ys) (hxs : xs ⊆ whole) :
    ys ⊆ whole :=
  fun _ hy => hxs (h.mem_iff.1 hy)

end Rearranged

end

/-! ## Sorted entries -/

section
variable [LinearOrder Place]

/-- Entries in the order of their places. -/
def InPlace (place : α → Place) (xs : List α) : Prop :=
  xs.Pairwise fun x y => place x ≤ place y

theorem inPlace_of_length_le {place : α → Place} {xs : List α} (h : xs.length ≤ 1) :
    InPlace place xs := by
  match xs with
  | [] => exact .nil
  | [x] => exact List.pairwise_singleton _ x
  | _ :: _ :: _ => simp at h

theorem inPlace_pair {place : α → Place} {x y : α} : InPlace place [x, y] ↔ place x ≤ place y :=
  List.pairwise_pair

/-- Entries in some order; if they are ranked, in that of their places, and those of one place in
    the order in which they were given. -/
structure Sorted (ranked : Prop) (place : α → Place) (xs ys : List α) : Prop
    extends Rearranged ranked place xs ys where
  inPlace : ranked → InPlace place ys

namespace Sorted

variable {place : α → Place} {xs xs' ys ys' zs : List α}

theorem refl (h : ranked → InPlace place xs) : Sorted ranked place xs xs :=
  ⟨.refl xs, h⟩

theorem of_rearranged (h : Rearranged ranked place xs ys) (h' : Sorted ranked place ys zs) :
    Sorted ranked place xs zs :=
  ⟨h.trans h'.toRearranged, h'.inPlace⟩

/-- Lists in place that agree are the same. -/
theorem eq_of_agree (h : Agree place ys zs) (hy : InPlace place ys) (hz : InPlace place zs) :
    ys = zs := by
  induction ys generalizing zs with
  | nil => exact (List.eq_nil_iff_forall_not_mem.2 fun x hx => List.not_mem_nil (h.mem_iff.1 hx)).symm
  | cons y ys ih =>
    cases zs with
    | nil => exact absurd (h.mem_iff.2 List.mem_cons_self) List.not_mem_nil
    | cons z zs =>
      obtain ⟨hleast, hys⟩ := List.pairwise_cons.1 hy
      obtain ⟨hleast', hzs⟩ := List.pairwise_cons.1 hz
      have hle : place y ≤ place z := by
        rcases List.mem_cons.1 (h.mem_iff.1 List.mem_cons_self) with rfl | hmem
        · exact le_rfl
        · exact hleast z hmem
      have hge : place z ≤ place y := by
        rcases List.mem_cons.1 (h.mem_iff.2 List.mem_cons_self) with rfl | hmem
        · exact le_rfl
        · exact hleast' y hmem
      -- the first entries are both the first one of the least place
      obtain rfl : z = y := by
        have hhead := h.filter_peers y
        simp only [List.filter_cons, hge.antisymm hle, decide_true, if_true] at hhead
        exact (List.cons.inj hhead).1
      rw [ih h.of_cons hys hzs]

theorem unique (hr : ranked) (hy : Sorted ranked place xs ys) (hz : Sorted ranked place xs zs) :
    ys = zs :=
  eq_of_agree (fun p hp => (hz.agree hr p hp).trans (hy.agree hr p hp).symm) (hy.inPlace hr)
    (hz.inPlace hr)

theorem append (hxs : Sorted ranked place xs xs') (hys : Sorted ranked place ys ys')
    (h : ranked → ∀ x ∈ xs, ∀ y ∈ ys, place x ≤ place y) :
    Sorted ranked place (xs ++ ys) (xs' ++ ys') :=
  ⟨hxs.toRearranged.append hys.toRearranged, fun hr =>
    List.pairwise_append.2 ⟨hxs.inPlace hr, hys.inPlace hr, fun x hx y hy =>
      h hr x (hxs.mem_iff.1 hx) y (hys.mem_iff.1 hy)⟩⟩

theorem cons {x : α} (h : Sorted ranked place xs ys)
    (hx : ranked → ∀ z ∈ xs, place x ≤ place z) : Sorted ranked place (x :: xs) (x :: ys) :=
  ⟨h.toRearranged.cons x, fun hr =>
    List.pairwise_cons.2 ⟨fun z hz => hx hr z (h.mem_iff.1 hz), h.inPlace hr⟩⟩

theorem map {f : β → α} {bs cs : List β} (h : Sorted ranked (place ∘ f) bs cs) :
    Sorted ranked place (bs.map f) (cs.map f) :=
  ⟨h.toRearranged.map, fun hr => List.pairwise_map.2 (h.inPlace hr)⟩

/-- Entries sorted from the last place to the first one are sorted when turned around. -/
theorem reverse (h : Sorted ranked (OrderDual.toDual ∘ place) xs ys) :
    Sorted ranked place xs.reverse ys.reverse :=
  ⟨Rearranged.reverse ⟨h.perm, h.agree⟩, fun hr => List.pairwise_reverse.2 (h.inPlace hr)⟩

end Sorted

end

end PocketSql
