/-
  Sorting by merging runs, and by parting at pivots.

  * `takeRun_spec`, `nextRun_spec`, `cutRuns_spec`: a list is cut into runs, none of its entries
    being lost, and what counts as in order is;
  * `Run.join_spec`, `collapse_spec`, `mergeRuns_spec`: so it stays when runs are joined, in
    whatever order;
  * `sortRuns_sorted`, `quickSort_sorted`, `stableSort_sorted`: the sort is stable, and it does not
    break off if the entries are ranked;
  * `perm_of_sortRows`, `sortRows_eq_error`: what holds of sorted rows whatever the comparison.
-/
import PocketSql.Proofs.Number.Rounding
import PocketSql.Proofs.Ordering.Merging

namespace PocketSql

variable {α Place : Type} [LinearOrder Place] {ranked : Prop} {isBefore : α → α → Bool}
  {place : α → Place} {whole : List α}

/-! ## Chains -/

section
variable {follows : α → α → Bool} {r : α → α → Prop} {x : α} {xs : List α}

theorem takeChain_append (follows : α → α → Bool) (x : α) (xs : List α) :
    (takeChain follows x xs).1 ++ (takeChain follows x xs).2 = x :: xs := by
  induction xs generalizing x with
  | nil => rfl
  | cons y ys ih =>
    unfold takeChain
    split
    · exact congrArg (x :: ·) (ih y)
    · rfl

theorem exists_takeChain (follows : α → α → Bool) (x : α) (xs : List α) :
    ∃ chain, (takeChain follows x xs).1 = x :: chain := by
  cases xs with
  | nil => exact ⟨[], rfl⟩
  | cons y ys =>
    unfold takeChain
    split
    · exact ⟨_, rfl⟩
    · exact ⟨[], rfl⟩

theorem takeChain_pairwise (hxs : x :: xs ⊆ whole)
    (hstep : ∀ a ∈ whole, ∀ b ∈ whole, follows a b = true → r a b)
    (htrans : ∀ {a b c}, r a b → r b c → r a c) : (takeChain follows x xs).1.Pairwise r := by
  induction xs generalizing x with
  | nil => exact List.pairwise_singleton r x
  | cons y ys ih =>
    obtain ⟨hx, hys⟩ := List.cons_subset.1 hxs
    unfold takeChain
    split
    · next hxy =>
      have hfirst : r x y := hstep x hx y (hys List.mem_cons_self) hxy
      have hchain := ih hys
      obtain ⟨chain, heq⟩ := exists_takeChain follows y ys
      rw [heq] at hchain
      show (x :: (takeChain follows y ys).1).Pairwise r
      rw [heq]
      refine List.pairwise_cons.2 ⟨List.forall_mem_cons.2 ⟨hfirst, fun z hz => ?_⟩, hchain⟩
      exact htrans hfirst (List.rel_of_pairwise_cons hchain hz)
    · exact List.pairwise_singleton r x

end

/-! ## Runs and stacks of runs -/

/-- The entries of a run that counts as in order are in place. -/
def Run.Ordered (ranked : Prop) (place : α → Place) (run : Run α) : Prop :=
  run.sorted = true → ranked → InPlace place run.entries

theorem Run.inOrder_sorted {sort : List α → Option (List α)} {run : Run α}
    (hsort : ∀ xs ⊆ whole, Gives ranked (Sorted ranked place xs) (sort xs))
    (hrun : run.Ordered ranked place) (hsub : run.entries ⊆ whole) :
    Gives ranked (Sorted ranked place run.entries) (run.inOrder sort) := by
  unfold Run.inOrder
  split
  · next hsorted => exact Sorted.refl (hrun hsorted)
  · exact hsort _ hsub

/-- The entries of the runs of a stack, in the order in which they stand. -/
def stacked (stack : List (Nat × Run α)) : List α :=
  stack.reverse.flatMap fun p => p.2.entries

theorem stacked_cons (d : Nat) (run : Run α) (stack : List (Nat × Run α)) :
    stacked ((d, run) :: stack) = stacked stack ++ run.entries := by
  simp [stacked]

/-! ## Lengths and pivots -/

theorem aboutSqrt_pos {n : Nat} (h : 2 ≤ n) : 0 < aboutSqrt n := by
  have hpos := twoPow_pos ((1 + n.log2) / 2)
  -- the two numbers whose middle is taken are not both less than 2
  have hsum : 2 ≤ twoPow ((1 + n.log2) / 2) + n / twoPow ((1 + n.log2) / 2) := by
    generalize twoPow ((1 + n.log2) / 2) = root at hpos ⊢
    rcases Nat.lt_or_ge root 2 with hlt | hge
    · obtain rfl : root = 1 := by omega
      rw [Nat.div_one]
      omega
    · exact Nat.le_trans hge (Nat.le_add_right _ _)
  exact Nat.div_pos hsum (by decide)

theorem goodLength_pos {n : Nat} (h : 0 < n) : 0 < goodLength n := by
  unfold goodLength
  split
  · omega
  · exact aboutSqrt_pos (by omega)

section
variable {xs : List α} {x y z : α}

theorem median_mem (hx : x ∈ xs) (hy : y ∈ xs) (hz : z ∈ xs) :
    median isBefore x y z ∈ xs := by
  unfold median
  split
  · split
    · exact hy
    · exact hz
  · exact hx

theorem entryFor_mem {first : α} (h : first ∈ xs) (start n : Nat) :
    entryFor isBefore first xs start n ∈ xs := by
  induction n using Nat.strong_induction_on generalizing start with
  | _ n ih =>
    unfold entryFor
    split
    · rw [List.getD_eq_getElem?_getD]
      cases hget : xs[start]? with
      | none => exact h
      | some x => exact List.mem_of_getElem? hget
    · have hlt : n / 8 < n := by omega
      exact median_mem (ih _ hlt _) (ih _ hlt _) (ih _ hlt _)

end

section
variable (hrank : ranked → Ranked place isBefore whole)
include hrank

/-! ## Cutting -/

section
variable {xs : List α} {eager : Bool} {good : Nat}

theorem takeRun_spec (hxs : xs ⊆ whole) :
    Rearranged ranked place xs ((takeRun isBefore xs).1 ++ (takeRun isBefore xs).2) ∧
      (ranked → InPlace place (takeRun isBefore xs).1) := by
  unfold takeRun
  split
  · next x y ys =>
    split
    · -- entries that go down have places of their own
      have hdown (hr : ranked) :
          (takeChain (fun x y => isBefore y x) x (y :: ys)).1.Pairwise
            fun a b => place b < place a :=
        takeChain_pairwise hxs (fun a ha b hb hba => (hrank hr).lt hb ha hba)
          fun hab hbc => hbc.trans hab
      refine ⟨?_, fun hr => List.pairwise_reverse.2 ((hdown hr).imp le_of_lt)⟩
      have hturned := Rearranged.turned fun hr => (hdown hr).imp fun hlt => hlt.ne'
      have hall := hturned.append
        (.refl (takeChain (fun x y => isBefore y x) x (y :: ys)).2)
      rwa [takeChain_append] at hall
    · refine ⟨.of_eq (takeChain_append _ _ _).symm, fun hr => ?_⟩
      refine takeChain_pairwise hxs (fun a ha b hb hba => ?_) le_trans
      exact (hrank hr).le hb ha (by simpa using hba)
  · next hshort =>
    refine ⟨.of_eq (List.append_nil xs).symm, fun _ => inPlace_of_length_le ?_⟩
    match xs, hshort with
    | [], _ => exact Nat.zero_le 1
    | [x], _ => exact Nat.le_refl 1
    | x :: y :: ys, hshort => exact absurd rfl (hshort x y ys)

theorem nextRun_spec (hgood : 0 < good) (hne : xs ≠ []) (hxs : xs ⊆ whole) :
    Gives ranked (fun p => Rearranged ranked place xs (p.1.entries ++ p.2) ∧
      p.1.Ordered ranked place ∧ p.1.entries ≠ []) (nextRun isBefore eager good xs) := by
  obtain ⟨hkept, hrun⟩ := takeRun_spec hrank hxs
  unfold nextRun
  generalize takeRun isBefore xs = p at hkept hrun ⊢
  obtain ⟨run, rest⟩ := p
  dsimp only at hkept hrun ⊢
  split
  · next hlong =>
    refine ⟨hkept, fun _ => hrun, ?_⟩
    rintro rfl
    exact absurd hlong (Nat.not_le_of_lt hgood)
  · split
    · have hsub : xs.take 32 ⊆ whole := List.Subset.trans (List.take_subset 32 xs) hxs
      refine (smallSort_sorted hrank hsub).map fun run hsorted => ⟨?_, fun _ => hsorted.inPlace, ?_⟩
      · have hall := hsorted.toRearranged.append (.refl (xs.drop 32))
        rwa [List.take_append_drop] at hall
      · rintro rfl
        have hlength := hsorted.perm.length_eq
        rw [List.length_take, List.length_nil] at hlength
        have := List.length_pos_iff.2 hne
        omega
    · refine ⟨.of_eq (List.take_append_drop good xs).symm, fun h => absurd h Bool.false_ne_true, ?_⟩
      intro hnil
      have hlength := congrArg List.length hnil
      rw [List.length_take, List.length_nil] at hlength
      have := List.length_pos_iff.2 hne
      omega

theorem cutRuns_spec {n : Nat} (hgood : 0 < good) (hxs : xs ⊆ whole) (hn : xs.length ≤ n) :
    Gives ranked (fun runs => Rearranged ranked place xs (runs.flatMap Run.entries) ∧
      ∀ run ∈ runs, run.Ordered ranked place) (cutRuns isBefore eager good n xs) := by
  induction n generalizing xs with
  | zero =>
    obtain rfl := List.length_eq_zero_iff.1 (Nat.le_zero.1 hn)
    exact ⟨.refl [], fun _ h => absurd h List.not_mem_nil⟩
  | succ n ih =>
    cases xs with
    | nil => exact ⟨.refl [], fun _ h => absurd h List.not_mem_nil⟩
    | cons x xs =>
      refine (nextRun_spec hrank hgood (List.cons_ne_nil x xs) hxs).bind ?_
      rintro ⟨run, rest⟩ ⟨hkept, hordered, hne⟩
      have hlength := hkept.perm.length_eq
      have hpos := List.length_pos_iff.2 hne
      rw [List.length_append] at hlength
      dsimp only at hlength hpos
      have hsub : rest ⊆ whole := (List.append_subset.1 (hkept.subset hxs)).2
      refine (ih hsub (by omega)).bind fun runs ⟨hrest, hall⟩ => ⟨?_, ?_⟩
      · rw [List.flatMap_cons]
        exact hkept.trans ((Rearranged.refl run.entries).append hrest)
      · exact List.forall_mem_cons.2 ⟨hordered, hall⟩

end

/-! ## Joining -/

section
variable {sort : List α → Option (List α)} {room : Nat}
  (hsort : ∀ xs ⊆ whole, Gives ranked (Sorted ranked place xs) (sort xs))
include hsort

theorem Run.join_spec {left right : Run α} (hleft : left.Ordered ranked place)
    (hright : right.Ordered ranked place) (hl : left.entries ⊆ whole) (hr : right.entries ⊆ whole) :
    Gives ranked (fun run => Rearranged ranked place (left.entries ++ right.entries) run.entries ∧
      run.Ordered ranked place) (left.join isBefore sort room right) := by
  unfold Run.join
  split
  · refine (Run.inOrder_sorted hsort hleft hl).bind fun xs hxs => ?_
    refine (Run.inOrder_sorted hsort hright hr).bind fun ys hys => ?_
    have hmerged : Sorted ranked place (xs ++ ys) (if xs.length ≤ ys.length then
        mergeForward isBefore xs ys else mergeBackward isBefore xs ys) := by
      split
      · exact mergeForward_sorted hrank (hxs.subset hl) (hys.subset hr) hxs.inPlace hys.inPlace
      · exact mergeBackward_sorted hrank (hxs.subset hl) (hys.subset hr) hxs.inPlace hys.inPlace
    exact ⟨(hxs.toRearranged.append hys.toRearranged).trans hmerged.toRearranged,
      fun _ => hmerged.inPlace⟩
  · exact ⟨.refl _, fun h => absurd h Bool.false_ne_true⟩

theorem collapse_spec {depth : Nat} {stack : List (Nat × Run α)} {run : Run α}
    (hstack : ∀ p ∈ stack, p.2.Ordered ranked place) (hrun : run.Ordered ranked place)
    (hsub : stacked stack ++ run.entries ⊆ whole) :
    Gives ranked (fun r => Rearranged ranked place (stacked stack ++ run.entries)
        (stacked r.1 ++ r.2.entries) ∧ (∀ p ∈ r.1, p.2.Ordered ranked place) ∧
        r.2.Ordered ranked place ∧ (depth = 0 → r.1 = []))
      (collapse isBefore sort room depth stack run) := by
  induction stack generalizing run with
  | nil => exact ⟨.refl _, hstack, hrun, fun _ => rfl⟩
  | cons top stack ih =>
    obtain ⟨d, left⟩ := top
    obtain ⟨hleft, hstack'⟩ := List.forall_mem_cons.1 hstack
    rw [stacked_cons, List.append_assoc] at hsub ⊢
    obtain ⟨hsubStack, hsubRuns⟩ := List.append_subset.1 hsub
    obtain ⟨hsubLeft, hsubRun⟩ := List.append_subset.1 hsubRuns
    unfold collapse
    split
    · refine (Run.join_spec hrank hsort hleft hrun hsubLeft hsubRun).bind ?_
      rintro joined ⟨hkept, hjoined⟩
      have hsubJoined := List.append_subset.2 ⟨hsubStack, hkept.subset hsubRuns⟩
      refine (ih hstack' hjoined hsubJoined).mono fun r ⟨hrest, hall⟩ => ⟨?_, hall⟩
      exact ((Rearranged.refl (stacked stack)).append hkept).trans hrest
    · next hshallow =>
      refine ⟨.of_eq ?_, hstack, hrun, fun hzero => absurd (hzero ▸ Nat.zero_le d) hshallow⟩
      rw [stacked_cons, List.append_assoc]

theorem mergeRuns_spec {n start : Nat} {stack : List (Nat × Run α)} {run : Run α}
    {runs : List (Run α)} (hstack : ∀ p ∈ stack, p.2.Ordered ranked place)
    (hrun : run.Ordered ranked place) (hruns : ∀ run ∈ runs, run.Ordered ranked place)
    (hsub : stacked stack ++ run.entries ++ runs.flatMap Run.entries ⊆ whole) :
    Gives ranked (fun merged => Rearranged ranked place
        (stacked stack ++ run.entries ++ runs.flatMap Run.entries) merged.entries ∧
        merged.Ordered ranked place)
      (mergeRuns isBefore sort room n start stack run runs) := by
  induction runs generalizing start stack run with
  | nil =>
    rw [List.flatMap_nil, List.append_nil] at hsub ⊢
    refine (collapse_spec hrank hsort hstack hrun hsub).map ?_
    rintro ⟨rest, merged⟩ ⟨hkept, -, hmerged, hnil⟩
    obtain rfl : rest = [] := hnil rfl
    exact ⟨hkept, hmerged⟩
  | cons next runs ih =>
    obtain ⟨hnext, hruns⟩ := List.forall_mem_cons.1 hruns
    obtain ⟨hsubRun, hsubRest⟩ := List.append_subset.1 hsub
    refine (collapse_spec hrank hsort hstack hrun hsubRun).bind ?_
    rintro ⟨rest, merged⟩ ⟨hkept, hrest, hmerged, -⟩
    have hpushed (depth : Nat) : Rearranged ranked place
        (stacked stack ++ run.entries ++ (next :: runs).flatMap Run.entries)
        (stacked ((depth, merged) :: rest) ++ next.entries ++ runs.flatMap Run.entries) := by
      rw [stacked_cons, List.flatMap_cons, List.append_assoc _ next.entries]
      exact hkept.append (.refl _)
    refine (ih (List.forall_mem_cons.2 ⟨hmerged, hrest⟩) hnext hruns
      ((hpushed _).subset hsub)).mono fun r ⟨hall, hordered⟩ => ⟨(hpushed _).trans hall, hordered⟩

end

/-! ## The sort -/

section
variable {xs : List α}

theorem sortRuns_sorted {sort : List α → Option (List α)} {room : Nat} {eager : Bool}
    (hsort : ∀ xs ⊆ whole, Gives ranked (Sorted ranked place xs) (sort xs)) (hxs : xs ⊆ whole) :
    Gives ranked (Sorted ranked place xs) (sortRuns isBefore sort room eager xs) := by
  cases xs with
  | nil => exact Sorted.refl fun _ => .nil
  | cons x xs =>
    have hgood : 0 < goodLength (x :: xs).length := goodLength_pos (Nat.succ_pos _)
    refine (cutRuns_spec hrank hgood hxs (Nat.le_refl _)).bind fun runs ⟨hkept, hruns⟩ => ?_
    cases runs with
    | nil => exact ⟨hkept, fun _ => .nil⟩
    | cons run runs =>
      obtain ⟨hrun, hruns⟩ := List.forall_mem_cons.1 hruns
      have hempty : ∀ p ∈ ([] : List (Nat × Run α)), p.2.Ordered ranked place :=
        fun _ h => absurd h List.not_mem_nil
      refine (mergeRuns_spec hrank hsort hempty hrun hruns (hkept.subset hxs)).bind
        fun merged ⟨hmerged, hordered⟩ => ?_
      have hall := hkept.trans hmerged
      exact (Run.inOrder_sorted hsort hordered (hall.subset hxs)).mono fun ys hys =>
        .of_rearranged hall hys

/-- If nothing is before the pivot, those that tie with it stay before the others. -/
theorem sorted_ties {pivot : α} {ys : List α} (hpivot : pivot ∈ whole) (hxs : xs ⊆ whole)
    (hleast : ranked → ∀ x ∈ xs, place pivot ≤ place x)
    (hys : Sorted ranked place (xs.filter fun x => !!isBefore pivot x) ys) :
    Sorted ranked place xs ((xs.filter fun x => !isBefore pivot x) ++ ys) := by
  have hties (hr : ranked) : ∀ x ∈ xs.filter fun x => !isBefore pivot x, place x ≤ place pivot := by
    intro x hx
    obtain ⟨hx, hnot⟩ := List.mem_filter.1 hx
    exact (hrank hr).le hpivot (hxs hx) (by simpa using hnot)
  have hgreater (hr : ranked) :
      ∀ x ∈ xs.filter fun x => !!isBefore pivot x, place pivot < place x := by
    intro x hx
    obtain ⟨hx, hlt⟩ := List.mem_filter.1 hx
    exact (hrank hr).lt hpivot (hxs hx) (by simpa using hlt)
  refine .of_rearranged (.partition (fun x => !isBefore pivot x) fun hr x hx y hy hpx hpy => ?_) ?_
  · exact ((hties hr x (List.mem_filter.2 ⟨hx, hpx⟩)).trans_lt
      (hgreater hr y (List.mem_filter.2 ⟨hy, by simpa using hpy⟩))).ne
  · refine (Sorted.refl fun hr => ?_).append hys fun hr x hx y hy =>
      (hties hr x hx).trans (hgreater hr y hy).le
    exact List.pairwise_of_forall_mem_list fun x hx y hy =>
      (hties hr x hx).trans (hleast hr y (List.mem_filter.1 hy).1)

/-- The entries before the pivot and the others may be sorted apart. -/
theorem sorted_parts {pivot : α} {ys zs : List α} (hpivot : pivot ∈ whole) (hxs : xs ⊆ whole)
    (hys : Sorted ranked place (xs.filter fun x => isBefore x pivot) ys)
    (hzs : Sorted ranked place (xs.filter fun x => !isBefore x pivot) zs) :
    Sorted ranked place xs (ys ++ zs) := by
  have hbefore (hr : ranked) : ∀ x ∈ xs.filter fun x => isBefore x pivot, place x < place pivot := by
    intro x hx
    obtain ⟨hx, hlt⟩ := List.mem_filter.1 hx
    exact (hrank hr).lt (hxs hx) hpivot hlt
  have hothers (hr : ranked) : ∀ x ∈ xs.filter fun x => !isBefore x pivot, place pivot ≤ place x := by
    intro x hx
    obtain ⟨hx, hnot⟩ := List.mem_filter.1 hx
    exact (hrank hr).le (hxs hx) hpivot (by simpa using hnot)
  refine .of_rearranged (.partition (fun x => isBefore x pivot) fun hr x hx y hy hpx hpy => ?_) ?_
  · exact ((hbefore hr x (List.mem_filter.2 ⟨hx, hpx⟩)).trans_le
      (hothers hr y (List.mem_filter.2 ⟨hy, by simpa using hpy⟩))).ne
  · exact hys.append hzs fun hr x hx y hy => ((hbefore hr x hx).trans_le (hothers hr y hy)).le

/-- None of the entries is before the pivot, if none was found to be or it is not after one that none
    of them is before. -/
theorem pivot_least {pivot : α} {least : Option α} (hpivot : pivot ∈ whole) (hxs : xs ⊆ whole)
    (hleast : ∀ p ∈ least, p ∈ whole ∧ (ranked → ∀ x ∈ xs, place p ≤ place x))
    (h : ((xs.filter fun x => isBefore x pivot).isEmpty ||
      least.any fun p => !isBefore p pivot) = true) (hr : ranked) :
    ∀ x ∈ xs, place pivot ≤ place x := by
  intro x hx
  rcases Bool.or_eq_true_iff.1 h with hnone | hsome
  · have hnot := List.filter_eq_nil_iff.1 (List.isEmpty_iff.1 hnone) x hx
    exact (hrank hr).le (hxs hx) hpivot (eq_false_of_ne_true hnot)
  · obtain ⟨p, hp, hnot⟩ := (Option.any_eq_true _ _).1 hsome
    obtain ⟨hpw, hple⟩ := hleast p hp
    exact ((hrank hr).le hpw hpivot (by simpa using hnot)).trans (hple hr x hx)

theorem quickSort_sorted {depth : Nat} {least : Option α} (hxs : xs ⊆ whole)
    (hleast : ∀ p ∈ least, p ∈ whole ∧ (ranked → ∀ x ∈ xs, place p ≤ place x)) :
    Gives ranked (Sorted ranked place xs) (quickSort isBefore depth least xs) := by
  induction depth generalizing least xs with
  | zero =>
    cases xs with
    | nil => exact Sorted.refl fun _ => .nil
    | cons first rest =>
      unfold quickSort
      split
      · exact smallSort_sorted hrank hxs
      · exact sortRuns_sorted hrank (fun ys hys => smallSort_sorted hrank hys) hxs
  | succ depth ih =>
    cases xs with
    | nil => exact Sorted.refl fun _ => .nil
    | cons first rest =>
      unfold quickSort
      split
      · exact smallSort_sorted hrank hxs
      · have hmem : entryFor isBefore first (first :: rest) 0 (first :: rest).length ∈ first :: rest :=
          entryFor_mem List.mem_cons_self 0 _
        simp only [List.partition_eq_filter_filter, Function.comp_def]
        generalize entryFor isBefore first (first :: rest) 0 (first :: rest).length = pivot at hmem ⊢
        generalize first :: rest = xs at hxs hleast hmem ⊢
        have hpivot : pivot ∈ whole := hxs hmem
        have hsub (p : α → Bool) : xs.filter p ⊆ whole := fun x hx => hxs (List.mem_filter.1 hx).1
        split
        · next hcond =>
          exact (ih (hsub _) fun _ h => by cases h).map fun ys hys =>
            sorted_ties hrank hpivot hxs (pivot_least hrank hpivot hxs hleast hcond) hys
        · refine (ih (hsub _) ?_).bind fun others hothers => (ih (hsub _) ?_).bind fun before hbefore =>
            sorted_parts hrank hpivot hxs hbefore hothers
          · rintro p ⟨⟩
            refine ⟨hpivot, fun hr x hx => ?_⟩
            obtain ⟨hx, hnot⟩ := List.mem_filter.1 hx
            exact (hrank hr).le (hxs hx) hpivot (by simpa using hnot)
          · intro p hp
            obtain ⟨hpw, hple⟩ := hleast p hp
            exact ⟨hpw, fun hr x hx => hple hr x (List.mem_filter.1 hx).1⟩

theorem stableSort_sorted (hxs : xs ⊆ whole) :
    Gives ranked (Sorted ranked place xs) (stableSort isBefore xs) := by
  unfold stableSort
  dsimp only
  split
  · exact insertionSort_sorted hrank hxs
  · exact sortRuns_sorted hrank (fun ys hys => quickSort_sorted hrank hys (by simp)) hxs

end

end

/-! ## Whatever the comparison -/

section
variable {xs sorted : List α}

/-- Nothing is said of the places of entries that are not ranked, but they are kept. -/
theorem perm_of_stableSort (h : stableSort isBefore xs = some sorted) : sorted.Perm xs := by
  have hsorted : Gives False (Sorted False (fun _ => 0 : α → Nat) xs) (stableSort isBefore xs) :=
    stableSort_sorted False.elim (List.Subset.refl xs)
  rw [h] at hsorted
  exact hsorted.perm

end

section
variable {keys : List SortKey} {rows sorted : List Row} {cause : SqlError}

theorem sortRows_nil (rows : List Row) : sortRows [] rows = .ok rows :=
  rfl

/-- The sorted rows are the given ones in some order. -/
theorem perm_of_sortRows (h : sortRows keys rows = .ok sorted) : sorted.Perm rows := by
  unfold sortRows at h
  split at h
  · cases h
    exact .refl rows
  · split at h
    · next hsort =>
      cases h
      exact perm_of_stableSort hsort
    · cases h

end

end PocketSql
