/-
  Sorting few entries.

  * `insertAll_sorted`, `sortFour_sorted`, `sortHalf_sorted`: insertion, the sort of four entries and
    that of half a list sort;
  * `mergeFirst_spec`: what merging the first entries of two lists takes from them, and that nothing
    left comes before it;
  * `mergeForward_sorted`, `mergeBackward_sorted`: so do merges of lists in place;
  * `Merging.Of.ends_meet`: the two ends of a merge meet, if the entries are ranked, and
    `mergeBothEnds_sorted`: so that merge sorts;
  * `smallSort_sorted`: so the sort of few entries does not break off then.
-/
import PocketSql.Proofs.Ordering.Rearrangement

namespace PocketSql

variable {α Place : Type} [LinearOrder Place] {ranked : Prop} {isBefore : α → α → Bool}
  {place : α → Place} {whole : List α}

/-- One entry is before another one exactly if its place is. -/
def Ranked (place : α → Place) (isBefore : α → α → Bool) (whole : List α) : Prop :=
  ∀ x ∈ whole, ∀ y ∈ whole, isBefore x y = true ↔ place x < place y

namespace Ranked

variable {x y : α}

theorem lt (h : Ranked place isBefore whole) (hx : x ∈ whole) (hy : y ∈ whole)
    (hxy : isBefore x y = true) : place x < place y :=
  (h x hx y hy).1 hxy

theorem le (h : Ranked place isBefore whole) (hx : x ∈ whole) (hy : y ∈ whole)
    (hxy : isBefore x y = false) : place y ≤ place x :=
  not_lt.1 fun hlt => Bool.false_ne_true (hxy.symm.trans ((h x hx y hy).2 hlt))

/-- From the other side, entries are ranked the other way round. -/
theorem mirror (h : Ranked place isBefore whole) :
    Ranked (OrderDual.toDual ∘ place) (fun x y => isBefore y x) whole :=
  fun x hx y hy => h y hy x hx

end Ranked

section
variable (hrank : ranked → Ranked place isBefore whole)
include hrank

/-! ## Insertion -/

section
variable {x : α} {xs ys sorted : List α}

theorem insertFromEnd_rearranged (hx : x ∈ whole) (hys : ys ⊆ whole) :
    Rearranged ranked place (x :: ys) (insertFromEnd isBefore x ys) := by
  induction ys with
  | nil => exact .refl [x]
  | cons y ys ih =>
    obtain ⟨hy, hys⟩ := List.cons_subset.1 hys
    unfold insertFromEnd
    split
    · next hxy =>
      exact (Rearranged.swap_head (fun hr => ((hrank hr).lt hx hy hxy).ne) ys).trans ((ih hys).cons y)
    · exact .refl _

theorem insertFromEnd_inPlace (hr : ranked) (hx : x ∈ whole) (hys : ys ⊆ whole)
    (h : InPlace place ys.reverse) : InPlace place (insertFromEnd isBefore x ys).reverse := by
  rw [InPlace, List.pairwise_reverse] at h ⊢
  induction ys with
  | nil => exact List.pairwise_singleton _ x
  | cons y ys ih =>
    have hy : y ∈ whole := hys List.mem_cons_self
    have hsub : ys ⊆ whole := (List.cons_subset.1 hys).2
    obtain ⟨hlast, htail⟩ := List.pairwise_cons.1 h
    unfold insertFromEnd
    split
    · next hxy =>
      refine List.pairwise_cons.2 ⟨fun z hz => ?_, ih hsub htail⟩
      rcases List.mem_cons.1 ((insertFromEnd_rearranged hrank hx hsub).mem_iff.1 hz) with rfl | hz
      · exact ((hrank hr).lt hx hy hxy).le
      · exact hlast z hz
    · next hxy =>
      have hyx : place y ≤ place x := (hrank hr).le hx hy (eq_false_of_ne_true hxy)
      exact List.pairwise_cons.2 ⟨List.forall_mem_cons.2 ⟨hyx, fun z hz => (hlast z hz).trans hyx⟩, h⟩

theorem insertAll_sorted (hsorted : sorted ⊆ whole) (hxs : xs ⊆ whole)
    (h : ranked → InPlace place sorted) :
    Sorted ranked place (sorted ++ xs) (insertAll isBefore sorted xs) := by
  induction xs generalizing sorted with
  | nil => simpa [insertAll] using Sorted.refl h
  | cons x xs ih =>
    obtain ⟨hx, hxs⟩ := List.cons_subset.1 hxs
    have hdown : sorted.reverse ⊆ whole := fun y hy => hsorted (List.mem_reverse.1 hy)
    have hmoved : Rearranged ranked place (sorted ++ [x])
        (insertFromEnd isBefore x sorted.reverse).reverse := by
      simpa using (insertFromEnd_rearranged hrank hx hdown).reverse
    have hsub : sorted ++ [x] ⊆ whole := List.append_subset.2 ⟨hsorted, by simpa using hx⟩
    have hnext := ih (hmoved.subset hsub) hxs fun hr =>
      insertFromEnd_inPlace hrank hr hx hdown (by simpa using h hr)
    rw [List.append_cons]
    simpa [insertAll] using Sorted.of_rearranged (hmoved.append (.refl xs)) hnext

theorem insertionSort_sorted (hxs : xs ⊆ whole) :
    Sorted ranked place xs (insertionSort isBefore xs) :=
  insertAll_sorted hrank (List.nil_subset _) hxs fun _ => .nil

end

/-! ## Four entries -/

section
variable {w x y z : α}

theorem inOrder_sorted (hx : x ∈ whole) (hy : y ∈ whole) :
    Sorted ranked place [x, y] [(inOrder isBefore x y).1, (inOrder isBefore x y).2] := by
  unfold inOrder
  split
  · next hyx =>
    exact ⟨.swap_head (fun hr => ((hrank hr).lt hy hx hyx).ne') [], fun hr =>
      inPlace_pair.2 ((hrank hr).lt hy hx hyx).le⟩
  · next hyx =>
    exact .refl fun hr => inPlace_pair.2 ((hrank hr).le hy hx (eq_false_of_ne_true hyx))

/-- Two entries between a first and a last one are put in order. -/
theorem sorted_around (hx : x ∈ whole) (hy : y ∈ whole) (hw : ranked → place w ≤ place x)
    (hw' : ranked → place w ≤ place y) (hz : ranked → place x ≤ place z)
    (hz' : ranked → place y ≤ place z) : Sorted ranked place [w, x, y, z]
      [w, (inOrder isBefore x y).1, (inOrder isBefore x y).2, z] := by
  have hsingle (v : α) : Sorted ranked place [v] [v] := .refl fun _ => List.pairwise_singleton _ v
  have hend := (inOrder_sorted hrank hx hy).append (hsingle z) fun hr => by simp [hz hr, hz' hr]
  refine (hsingle w).append hend fun hr => ?_
  simp [hw hr, hw' hr, (hw hr).trans (hz hr)]

theorem sortFour_sorted (h : [w, x, y, z] ⊆ whole) :
    Sorted ranked place [w, x, y, z] (sortFour isBefore w x y z) := by
  simp only [List.cons_subset, List.nil_subset, and_true] at h
  obtain ⟨hw, hx, hy, hz⟩ := h
  have hab := inOrder_sorted hrank hw hx
  have hcd := inOrder_sorted hrank hy hz
  unfold sortFour
  generalize inOrder isBefore w x = ab at hab ⊢
  generalize inOrder isBefore y z = cd at hcd ⊢
  obtain ⟨a, b⟩ := ab
  obtain ⟨c, d⟩ := cd
  have hwx : [w, x] ⊆ whole := List.cons_subset.2 ⟨hw, by simpa using hx⟩
  have hyz : [y, z] ⊆ whole := List.cons_subset.2 ⟨hy, by simpa using hz⟩
  obtain ⟨ha, hb⟩ : a ∈ whole ∧ b ∈ whole := by simpa using hab.subset hwx
  obtain ⟨hc, hd⟩ : c ∈ whole ∧ d ∈ whole := by simpa using hcd.subset hyz
  have hable (hr : ranked) : place a ≤ place b := inPlace_pair.1 (hab.inPlace hr)
  have hcdle (hr : ranked) : place c ≤ place d := inPlace_pair.1 (hcd.inPlace hr)
  refine .of_rearranged (hab.toRearranged.append hcd.toRearranged) ?_
  cases hca : isBefore c a <;> cases hdb : isBefore d b <;>
    simp only [hca, hdb, Bool.false_eq_true, if_false, if_true]
  case false.false =>
    have hac (hr : ranked) : place a ≤ place c := (hrank hr).le hc ha hca
    have hbd (hr : ranked) : place b ≤ place d := (hrank hr).le hd hb hdb
    exact sorted_around hrank hb hc hable hac hbd hcdle
  case true.false =>
    have hca (hr : ranked) : place c < place a := (hrank hr).lt hc ha hca
    have hbd (hr : ranked) : place b ≤ place d := (hrank hr).le hd hb hdb
    have hmoved : Rearranged ranked place ([a, b] ++ [c]) ([c] ++ [a, b]) :=
      .swap fun hr => by simp [(hca hr).ne', ((hca hr).trans_le (hable hr)).ne']
    exact .of_rearranged (hmoved.append (.refl [d])) <|
      sorted_around hrank ha hb (fun hr => (hca hr).le) (fun hr => ((hca hr).trans_le (hable hr)).le)
        (fun hr => (hable hr).trans (hbd hr)) hbd
  case false.true =>
    have hac (hr : ranked) : place a ≤ place c := (hrank hr).le hc ha hca
    have hdb (hr : ranked) : place d < place b := (hrank hr).lt hd hb hdb
    have hmoved : Rearranged ranked place ([b] ++ [c, d]) ([c, d] ++ [b]) :=
      .swap fun hr => by simp [(hdb hr).ne', ((hcdle hr).trans_lt (hdb hr)).ne']
    exact .of_rearranged (hmoved.cons a) <|
      sorted_around hrank hc hd hac (fun hr => (hac hr).trans (hcdle hr))
        (fun hr => ((hcdle hr).trans_lt (hdb hr)).le) (fun hr => (hdb hr).le)
  case true.true =>
    have hca (hr : ranked) : place c < place a := (hrank hr).lt hc ha hca
    have hdb (hr : ranked) : place d < place b := (hrank hr).lt hd hb hdb
    have hmoved : Rearranged ranked place ([a, b] ++ [c]) ([c] ++ [a, b]) :=
      .swap fun hr => by simp [(hca hr).ne', ((hca hr).trans_le (hable hr)).ne']
    have hmoved' : Rearranged ranked place [b, d] [d, b] := .swap_head (fun hr => (hdb hr).ne') []
    exact .of_rearranged ((hmoved.append (.refl [d])).trans ((Rearranged.refl [c, a]).append hmoved'))
      <| sorted_around hrank ha hd (fun hr => (hca hr).le) hcdle hable fun hr => (hdb hr).le

theorem sortHalf_sorted {xs : List α} (long : Bool) (hxs : xs ⊆ whole) :
    Sorted ranked place xs (sortHalf isBefore long xs) := by
  unfold sortHalf
  split
  · next w x y z rest =>
    have hsub : [w, x, y, z] ⊆ whole := fun v hv => hxs (List.mem_append_left rest hv)
    have hfour := sortFour_sorted hrank hsub
    have hrest := insertAll_sorted hrank (hfour.subset hsub)
      (fun v hv => hxs (List.mem_append_right [w, x, y, z] hv)) hfour.inPlace
    exact .of_rearranged (hfour.toRearranged.append (.refl rest)) hrest
  · exact insertionSort_sorted hrank hxs

end

end

/-! ## The first entries of two lists -/

/-- What is merged are the beginnings `as` and `bs` of two lists, sorted, and nothing that is left
    comes before them. -/
structure Merging.Of (ranked : Prop) (place : α → Place) (n : Nat) (xs ys as bs : List α)
    (m : Merging α) : Prop where
  left_eq : xs = as ++ m.left
  right_eq : ys = bs ++ m.right
  sorted : Sorted ranked place (as ++ bs) m.merged
  right_lt : ranked → ∀ y ∈ bs, ∀ x ∈ m.left, place y < place x
  left_le : ranked → ∀ x ∈ as, ∀ y ∈ m.right, place x ≤ place y
  length_le : m.merged.length ≤ n
  ends : m.merged.length = n ∨ m.left = [] ∨ m.right = []

section
variable {n : Nat} {x y : α} {xs ys as bs : List α} {m : Merging α}

namespace Merging.Of

theorem mem_left (h : m.Of ranked place n xs ys as bs) (hx : x ∈ as ∨ x ∈ m.left) : x ∈ xs := by
  rw [h.left_eq]
  exact List.mem_append.2 hx

theorem mem_right (h : m.Of ranked place n xs ys as bs) (hy : y ∈ bs ∨ y ∈ m.right) : y ∈ ys := by
  rw [h.right_eq]
  exact List.mem_append.2 hy

/-- An entry of the first list that is before none of the others goes first. -/
theorem push_left (h : m.Of ranked place n xs ys as bs) (hxs : ranked → ∀ z ∈ xs, place x ≤ place z)
    (hys : ranked → ∀ z ∈ ys, place x ≤ place z) :
    (m.push x).Of ranked place (n + 1) (x :: xs) ys (x :: as) bs where
  left_eq := congrArg (x :: ·) h.left_eq
  right_eq := h.right_eq
  sorted := h.sorted.cons fun hr => List.forall_mem_append.2
    ⟨fun z hz => hxs hr z (h.mem_left (.inl hz)), fun z hz => hys hr z (h.mem_right (.inl hz))⟩
  right_lt := h.right_lt
  left_le hr := List.forall_mem_cons.2
    ⟨fun z hz => hys hr z (h.mem_right (.inr hz)), h.left_le hr⟩
  length_le := Nat.succ_le_succ h.length_le
  ends := h.ends.imp_left (congrArg (· + 1))

/-- An entry of the second list that is before all of the first one goes first. -/
theorem push_right (h : m.Of ranked place n xs ys as bs) (hxs : ranked → ∀ z ∈ xs, place y < place z)
    (hys : ranked → ∀ z ∈ ys, place y ≤ place z) :
    (m.push y).Of ranked place (n + 1) xs (y :: ys) as (y :: bs) where
  left_eq := h.left_eq
  right_eq := congrArg (y :: ·) h.right_eq
  sorted := by
    have hmoved : Rearranged ranked place (as ++ [y]) ([y] ++ as) :=
      .swap fun hr z hz w hw => by
        rw [List.mem_singleton.1 hw]
        exact (hxs hr z (h.mem_left (.inl hz))).ne'
    have hcons : Sorted ranked place (y :: (as ++ bs)) (y :: m.merged) :=
      h.sorted.cons fun hr => List.forall_mem_append.2
        ⟨fun z hz => (hxs hr z (h.mem_left (.inl hz))).le,
          fun z hz => hys hr z (h.mem_right (.inl hz))⟩
    rw [List.append_cons]
    exact .of_rearranged (hmoved.append (.refl bs)) hcons
  right_lt hr := List.forall_mem_cons.2
    ⟨fun z hz => hxs hr z (h.mem_left (.inr hz)), h.right_lt hr⟩
  left_le := h.left_le
  length_le := Nat.succ_le_succ h.length_le
  ends := h.ends.imp_left (congrArg (· + 1))

/-- As many entries are taken as are asked for, if there are so many of both lists. -/
theorem length_taken (h : m.Of ranked place n xs ys as bs) (hxs : n ≤ xs.length)
    (hys : n ≤ ys.length) : as.length + bs.length = n := by
  have hcount := h.sorted.perm.length_eq
  have hlefts := congrArg List.length h.left_eq
  have hrights := congrArg List.length h.right_eq
  have hle := h.length_le
  simp only [List.length_append] at hcount hlefts hrights
  rcases h.ends with hends | hends | hends
  · omega
  · rw [hends, List.length_nil] at hlefts
    omega
  · rw [hends, List.length_nil] at hrights
    omega

/-- Nothing that is left comes before what is merged. -/
theorem le_rest (h : m.Of ranked place n xs ys as bs) (hr : ranked)
    (hx : InPlace place xs) (hy : InPlace place ys) :
    ∀ v ∈ as ++ bs, ∀ w ∈ m.left ++ m.right, place v ≤ place w := by
  have hxs := h.left_eq ▸ hx
  have hys := h.right_eq ▸ hy
  refine List.forall_mem_append.2 ⟨fun v hv => ?_, fun v hv => ?_⟩
  · exact List.forall_mem_append.2 ⟨(List.pairwise_append.1 hxs).2.2 v hv, h.left_le hr v hv⟩
  · exact List.forall_mem_append.2
      ⟨fun w hw => (h.right_lt hr v hv w hw).le, (List.pairwise_append.1 hys).2.2 v hv⟩

/-- The beginnings of two lists may go before what is left of both. -/
theorem rearranged (h : m.Of ranked place n xs ys as bs) :
    Rearranged ranked place (xs ++ ys) (as ++ bs ++ (m.left ++ m.right)) := by
  have hmoved : Rearranged ranked place (m.left ++ bs) (bs ++ m.left) :=
    .swap fun hr x hx y hy => (h.right_lt hr y hy x hx).ne'
  have hall := ((Rearranged.refl as).append hmoved).append (.refl m.right)
  rw [h.left_eq, h.right_eq]
  simpa only [List.append_assoc] using hall

end Merging.Of

end

/-! ## Both ends -/

section
variable {n : Nat} {xs left right as bs cs ds mid mid' : List α} {front back : Merging α}

/-- A list parted at two places, the first of which is not behind the second. -/
theorem exists_between (h : xs = as ++ bs) (h' : xs = cs ++ ds)
    (hle : xs.length ≤ bs.length + cs.length) :
    ∃ mid, cs = as ++ mid ∧ bs = mid ++ ds ∧ bs.take (bs.length + cs.length - xs.length) = mid := by
  have hlength := congrArg List.length h
  rw [List.length_append] at hlength
  obtain ⟨mid, hcs, hbs⟩ : ∃ mid, cs = as ++ mid ∧ bs = mid ++ ds := by
    rcases List.append_eq_append_iff.1 (h.symm.trans h') with hmid | ⟨mid, has, hds⟩
    · exact hmid
    · have hsplit := congrArg List.length has
      rw [List.length_append] at hsplit
      obtain rfl : mid = [] := List.length_eq_zero_iff.1 (by omega)
      exact ⟨[], by simpa using has.symm, by simpa using hds.symm⟩
  refine ⟨mid, hcs, hbs, ?_⟩
  have hmid := congrArg List.length hcs
  rw [List.length_append] at hmid
  rw [show bs.length + cs.length - xs.length = mid.length by omega, hbs, List.take_left]

/-- A list parted at two places, the first of which is behind the second. -/
theorem exists_mem_both (h : xs = as ++ bs) (h' : xs = cs ++ ds)
    (hlt : bs.length + cs.length < xs.length) : ∃ x, x ∈ as ∧ x ∈ ds := by
  have hlength := congrArg List.length h
  have hlength' := congrArg List.length h'
  rw [List.length_append] at hlength hlength'
  obtain ⟨mid, has, hds, -⟩ := exists_between h' h (by omega)
  cases mid with
  | nil =>
    have hnil := congrArg List.length has
    rw [List.length_append, List.length_nil] at hnil
    omega
  | cons x mid => exact ⟨x, by simp [has], by simp [hds]⟩

namespace Merging.Of

/-- What neither end of a merge has taken goes between what they have. -/
theorem sorted_between (hf : front.Of ranked place n left right as bs)
    (hb : back.Of ranked (OrderDual.toDual ∘ place) n right.reverse left.reverse ds cs)
    (hleft : ranked → InPlace place left) (hright : ranked → InPlace place right)
    (hmid : back.right.reverse = as ++ mid) (hrest : front.left = mid ++ cs.reverse)
    (hmid' : back.left.reverse = bs ++ mid') (hrest' : front.right = mid' ++ ds.reverse)
    (hshort : (mid ++ mid').length ≤ 1) :
    Sorted ranked place (left ++ right) (front.merged ++ (mid ++ mid' ++ back.merged.reverse)) := by
  have hbetween : Sorted ranked place (mid ++ mid') (mid ++ mid') :=
    .refl fun _ => inPlace_of_length_le hshort
  have hlast : Sorted ranked place (cs.reverse ++ ds.reverse) back.merged.reverse := by
    simpa using hb.sorted.reverse
  have hmem {x : α} (hx : x ∈ mid) : x ∈ back.right :=
    List.mem_reverse.1 (hmid ▸ List.mem_append_right as hx)
  have hmem' {x : α} (hx : x ∈ mid') : x ∈ back.left :=
    List.mem_reverse.1 (hmid' ▸ List.mem_append_right bs hx)
  have hle (hr : ranked) : ∀ v ∈ mid ++ mid', ∀ w ∈ cs.reverse ++ ds.reverse, place v ≤ place w := by
    intro v hv w hw
    refine hb.le_rest hr (List.pairwise_reverse.2 (hright hr)) (List.pairwise_reverse.2 (hleft hr))
      w (by simpa [or_comm] using hw) v ?_
    exact List.mem_append.2 ((List.mem_append.1 hv).symm.imp hmem' hmem)
  have hmoved : Rearranged ranked place (cs.reverse ++ mid') (mid' ++ cs.reverse) := by
    refine .swap fun hr x hx y hy => ?_
    have hyx : place y < place x := hb.right_lt hr x (List.mem_reverse.1 hx) y (hmem' hy)
    exact hyx.ne'
  have hall := ((Rearranged.refl mid).append hmoved).append (.refl ds.reverse)
  refine .of_rearranged hf.rearranged <|
    hf.sorted.append ?_ fun hr => hf.le_rest hr (hleft hr) (hright hr)
  rw [hrest, hrest']
  refine .of_rearranged ?_ (hbetween.append hlast hle)
  simpa only [List.append_assoc] using hall

/-- **The two ends of a merge meet**, if the entries are ranked: an entry that both have taken would
    be no later, and earlier, than one that neither has taken. -/
theorem ends_meet (hf : front.Of ranked place n left right as bs)
    (hb : back.Of ranked (OrderDual.toDual ∘ place) n right.reverse left.reverse ds cs)
    (hr : ranked) (hle : left.length ≤ right.length) (hcount : as.length + bs.length = left.length)
    (hcountBack : ds.length + cs.length = left.length) :
    left.length ≤ front.left.length + back.right.length ∧
      right.length ≤ front.right.length + back.left.length := by
  have hlefts : left = back.right.reverse ++ cs.reverse := List.reverse_eq_append_iff.1 hb.right_eq
  have hrights : right = back.left.reverse ++ ds.reverse := List.reverse_eq_append_iff.1 hb.left_eq
  have hlength := congrArg List.length hf.left_eq
  have hlength' := congrArg List.length hf.right_eq
  have hlengthBack := congrArg List.length hlefts
  have hlengthBack' := congrArg List.length hrights
  simp only [List.length_append, List.length_reverse] at hlength hlength' hlengthBack hlengthBack'
  constructor
  · by_contra hnot
    obtain ⟨x, hx, hx'⟩ : ∃ x, x ∈ as ∧ x ∈ cs.reverse :=
      exists_mem_both hf.left_eq hlefts (by rw [List.length_reverse]; omega)
    obtain ⟨y, hy', hy⟩ : ∃ y, y ∈ back.left.reverse ∧ y ∈ front.right :=
      exists_mem_both hrights hf.right_eq (by rw [List.length_reverse]; omega)
    have hxy : place x ≤ place y := hf.left_le hr x hx y hy
    have hyx : place y < place x :=
      hb.right_lt hr x (List.mem_reverse.1 hx') y (List.mem_reverse.1 hy')
    exact absurd hxy (not_le.2 hyx)
  · by_contra hnot
    obtain ⟨y, hy, hy'⟩ : ∃ y, y ∈ bs ∧ y ∈ ds.reverse :=
      exists_mem_both hf.right_eq hrights (by rw [List.length_reverse]; omega)
    obtain ⟨x, hx', hx⟩ : ∃ x, x ∈ back.right.reverse ∧ x ∈ front.left :=
      exists_mem_both hlefts hf.left_eq (by rw [List.length_reverse]; omega)
    have hyx : place y < place x := hf.right_lt hr y hy x hx
    have hxy : place x ≤ place y :=
      hb.left_le hr y (List.mem_reverse.1 hy') x (List.mem_reverse.1 hx')
    exact absurd hxy (not_le.2 hyx)

end Merging.Of

end

/-! ## Merges -/

section
variable {xs ys left right : List α}
variable (hrank : ranked → Ranked place isBefore whole)
include hrank

theorem mergeFirst_spec (n : Nat) (hxs : xs ⊆ whole) (hys : ys ⊆ whole)
    (hx : ranked → InPlace place xs) (hy : ranked → InPlace place ys) :
    ∃ as bs, (mergeFirst isBefore n xs ys).Of ranked place n xs ys as bs := by
  have hdone {k : Nat} {xs ys : List α} (h : 0 = k ∨ xs = [] ∨ ys = []) :
      (⟨[], xs, ys⟩ : Merging α).Of ranked place k xs ys [] [] :=
    ⟨rfl, rfl, .refl fun _ => .nil, fun _ _ h => absurd h List.not_mem_nil,
      fun _ _ h => absurd h List.not_mem_nil, Nat.zero_le k, h⟩
  induction n generalizing xs ys with
  | zero => exact ⟨[], [], by unfold mergeFirst; exact hdone (.inl rfl)⟩
  | succ n ih =>
    cases xs with
    | nil => exact ⟨[], [], hdone (.inr (.inl rfl))⟩
    | cons x xs =>
      cases ys with
      | nil => exact ⟨[], [], hdone (.inr (.inr rfl))⟩
      | cons y ys =>
        obtain ⟨hxw, hxs'⟩ := List.cons_subset.1 hxs
        obtain ⟨hyw, hys'⟩ := List.cons_subset.1 hys
        unfold mergeFirst
        cases hyx : isBefore y x with
        | true =>
          obtain ⟨as, bs, h⟩ := ih hxs hys' hx fun hr => (hy hr).of_cons
          have hlt (hr : ranked) : place y < place x := (hrank hr).lt hyw hxw hyx
          refine ⟨as, y :: bs, h.push_right (fun hr => ?_) fun hr => (List.pairwise_cons.1 (hy hr)).1⟩
          exact List.forall_mem_cons.2 ⟨hlt hr, fun z hz =>
            (hlt hr).trans_le ((List.pairwise_cons.1 (hx hr)).1 z hz)⟩
        | false =>
          obtain ⟨as, bs, h⟩ := ih hxs' hys (fun hr => (hx hr).of_cons) hy
          have hle (hr : ranked) : place x ≤ place y := (hrank hr).le hyw hxw hyx
          refine ⟨x :: as, bs, h.push_left (fun hr => (List.pairwise_cons.1 (hx hr)).1) fun hr => ?_⟩
          exact List.forall_mem_cons.2 ⟨hle hr, fun z hz =>
            (hle hr).trans ((List.pairwise_cons.1 (hy hr)).1 z hz)⟩

theorem mergeForward_sorted (hl : left ⊆ whole) (hr : right ⊆ whole)
    (hleft : ranked → InPlace place left) (hright : ranked → InPlace place right) :
    Sorted ranked place (left ++ right) (mergeForward isBefore left right) := by
  obtain ⟨as, bs, h⟩ := mergeFirst_spec hrank (left.length + right.length) hl hr hleft hright
  unfold mergeForward
  generalize mergeFirst isBefore (left.length + right.length) left right = m at h ⊢
  -- one of the lists is used up
  have hdone : m.left = [] ∨ m.right = [] := by
    refine h.ends.elim (fun hlength => .inl ?_) id
    have hcount := h.sorted.perm.length_eq
    have hlefts := congrArg List.length h.left_eq
    have hrights := congrArg List.length h.right_eq
    simp only [List.length_append] at hcount hlefts hrights
    exact List.length_eq_zero_iff.1 (by omega)
  have hrest : Sorted ranked place (m.left ++ m.right) (m.left ++ m.right) := by
    refine .refl fun hr => ?_
    rcases hdone with hnil | hnil <;> rw [hnil]
    · exact (List.pairwise_append.1 (h.right_eq ▸ hright hr)).2.1
    · rw [List.append_nil]
      exact (List.pairwise_append.1 (h.left_eq ▸ hleft hr)).2.1
  exact .of_rearranged h.rearranged <|
    h.sorted.append hrest fun hr => h.le_rest hr (hleft hr) (hright hr)

theorem mergeBackward_sorted (hl : left ⊆ whole) (hr : right ⊆ whole)
    (hleft : ranked → InPlace place left) (hright : ranked → InPlace place right) :
    Sorted ranked place (left ++ right) (mergeBackward isBefore left right) := by
  have hforward := mergeForward_sorted (fun hr => (hrank hr).mirror)
    (List.reverse_subset.2 hr) (List.reverse_subset.2 hl)
    (fun hr => List.pairwise_reverse.2 (hright hr)) (fun hr => List.pairwise_reverse.2 (hleft hr))
  simpa [mergeBackward] using hforward.reverse

theorem mergeBothEnds_sorted (hl : left ⊆ whole) (hr : right ⊆ whole)
    (hleft : ranked → InPlace place left) (hright : ranked → InPlace place right)
    (hle : left.length ≤ right.length) (hle' : right.length ≤ left.length + 1) :
    Gives ranked (Sorted ranked place (left ++ right)) (mergeBothEnds isBefore left right) := by
  obtain ⟨as, bs, hf⟩ := mergeFirst_spec hrank left.length hl hr hleft hright
  obtain ⟨ds, cs, hb⟩ := mergeFirst_spec (fun hr => (hrank hr).mirror) left.length
    (List.reverse_subset.2 hr) (List.reverse_subset.2 hl)
    (fun hr => List.pairwise_reverse.2 (hright hr)) (fun hr => List.pairwise_reverse.2 (hleft hr))
  have hcount := hf.length_taken (Nat.le_refl _) hle
  have hcountBack := hb.length_taken (hle.trans_eq List.length_reverse.symm)
    (Nat.le_of_eq List.length_reverse.symm)
  unfold mergeBothEnds
  generalize mergeFirst isBefore left.length left right = front at hf ⊢
  generalize mergeFirst (fun x y => isBefore y x) left.length right.reverse left.reverse = back
    at hb ⊢
  dsimp only
  split
  · next hmeet =>
    obtain ⟨mid, hmid, hrest, htake⟩ := exists_between hf.left_eq
      (List.reverse_eq_append_iff.1 hb.right_eq) (by rw [List.length_reverse]; exact hmeet.1)
    obtain ⟨mid', hmid', hrest', htake'⟩ := exists_between hf.right_eq
      (List.reverse_eq_append_iff.1 hb.left_eq) (by rw [List.length_reverse]; exact hmeet.2)
    rw [List.length_reverse] at htake htake'
    rw [htake, htake', List.append_assoc]
    refine hf.sorted_between hb hleft hright hmid hrest hmid' hrest' ?_
    have hlength := congrArg List.length hf.left_eq
    have hlength' := congrArg List.length hf.right_eq
    have hlengthMid := congrArg List.length hrest
    have hlengthMid' := congrArg List.length hrest'
    simp only [List.length_append, List.length_reverse] at hlength hlength' hlengthMid hlengthMid' ⊢
    omega
  · next hmeet => exact fun hr => hmeet (hf.ends_meet hb hr hle hcount hcountBack)

theorem smallSort_sorted (hxs : xs ⊆ whole) :
    Gives ranked (Sorted ranked place xs) (smallSort isBefore xs) := by
  unfold smallSort
  split
  · next hshort => exact Sorted.refl fun _ => inPlace_of_length_le (by omega)
  · have hl := sortHalf_sorted hrank (decide (8 ≤ xs.length))
      (List.Subset.trans (List.take_subset (xs.length / 2) xs) hxs)
    have hr := sortHalf_sorted hrank (decide (8 ≤ xs.length))
      (List.Subset.trans (List.drop_subset (xs.length / 2) xs) hxs)
    have hcount := hl.perm.length_eq
    have hcount' := hr.perm.length_eq
    rw [List.length_take] at hcount
    rw [List.length_drop] at hcount'
    have hhalves := hl.toRearranged.append hr.toRearranged
    rw [List.take_append_drop] at hhalves
    have hmerged := mergeBothEnds_sorted hrank
      (hl.subset (List.Subset.trans (List.take_subset _ xs) hxs))
      (hr.subset (List.Subset.trans (List.drop_subset _ xs) hxs)) hl.inPlace hr.inPlace
      (by omega) (by omega)
    exact hmerged.mono fun ys hys => .of_rearranged hhalves hys

end

end PocketSql
