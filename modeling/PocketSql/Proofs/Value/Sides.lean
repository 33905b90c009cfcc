/-
  Comparisons from the other side.

  * `eq_swap_of_compares`: orders that go by places are the reverse of each other from the two
    sides; so are those of numbers, texts and truth values;
  * `Value.numbers?_swap`, `Value.compareDates?_swap`: two values have readings as numbers, or as
    dates, on whichever side they stand;
  * `Value.compare?_swap`, `Value.looselyEquals_comm`: so the order of two values is reversed, and
    their equality is the same;
  * `CompareOp.mirrored` is the sign that says the same from the other side;
    `comparison_mirrored`: all of this of any two values.
-/
import Mathlib.Data.String.Basic
import Mathlib.Order.Compare
import PocketSql.Predicate.Basic

namespace PocketSql

/-! ## Orders that go by places -/

theorem compare_int_compares (i j : Int) : (compare i j).Compares i j :=
  (compare_iff i j).1 rfl

theorem compare_nat_compares (m n : Nat) : (compare m n).Compares m n :=
  (compare_iff m n).1 rfl

theorem Value.compareText_compares (s t : String) : (compareText s t).Compares s t := by
  unfold compareText
  split
  · next h => exact h
  split
  · next h => exact h
  · next hlt hne => exact lt_of_le_of_ne (not_lt.1 hlt) (Ne.symm hne)

/-- Comparisons that go by places are the reverse of each other from the two sides. -/
theorem eq_swap_of_compares {Place : Type} [Preorder Place] {a b : Place} {order order' : Ordering}
    (h : order.Compares a b) (h' : order'.Compares b a) : order' = order.swap :=
  h'.inj (Ordering.compares_swap.2 h)

theorem compare_int_swap (i j : Int) : compare j i = (compare i j).swap :=
  eq_swap_of_compares (compare_int_compares i j) (compare_int_compares j i)

namespace Binary64

theorem compare?_swap (x y : Binary64) : y.compare? x = (x.compare? y).map Ordering.swap := by
  unfold compare?
  rw [Bool.or_comm]
  split
  · rfl
  · rw [compare_int_swap]
    rfl

theorem equals_comm (x y : Binary64) : x.equals y = y.equals x := by
  rw [equals, equals, compare?_swap x y]
  cases x.compare? y with
  | none => rfl
  | some order => cases order <;> rfl

end Binary64

/-! ## Values -/

namespace Value

theorem compareText_swap (s t : String) : compareText t s = (compareText s t).swap :=
  eq_swap_of_compares (compareText_compares s t) (compareText_compares t s)

theorem compareBool_swap (p q : Bool) : compareBool q p = (compareBool p q).swap :=
  eq_swap_of_compares (compare_nat_compares p.toNat q.toNat) (compare_nat_compares _ _)

theorem numbers?_swap (u v : Value) : numbers? v u = (numbers? u v).map Prod.swap := by
  unfold numbers?
  rw [Bool.or_comm]
  split
  · cases u.number? <;> cases v.number? <;> rfl
  · rfl

theorem compareDates?_swap (u v : Value) :
    compareDates? v u = (compareDates? u v).map Ordering.swap := by
  unfold compareDates?
  rw [Bool.or_comm]
  split
  · cases u.timestamp? with
    | none => cases v.timestamp? <;> rfl
    | some s =>
      cases v.timestamp? with
      | none => rfl
      | some t => exact congrArg some (compare_int_swap s.nanos t.nanos)
  · rfl

/-- Which side a value stands on does not matter: from the other side the order is the reverse, and
    there is none if there was none. -/
theorem compare?_swap (u v : Value) : v.compare? u = (u.compare? v).map Ordering.swap := by
  unfold compare?
  rw [Bool.or_comm, Bool.or_comm v.isNumeric, numbers?_swap u v, compareDates?_swap u v]
  split
  · rfl
  split
  · cases u.numbers? v with
    | none => rfl
    | some readings => exact Binary64.compare?_swap readings.1 readings.2
  · cases u.compareDates? v with
    | some order => rfl
    | none =>
      cases u <;> cases v <;> try rfl
      · exact congrArg some (compareText_swap _ _)
      · exact congrArg some (compareBool_swap _ _)

theorem looselyEquals_comm (u v : Value) : u.looselyEquals v = v.looselyEquals u := by
  unfold looselyEquals
  rw [Bool.or_comm v.isNull, numbers?_swap u v, compareDates?_swap u v]
  split
  · rfl
  · cases numbers? u v with
    | some readings => exact Binary64.equals_comm readings.1 readings.2
    | none =>
      cases compareDates? u v with
      | some order => cases order <;> rfl
      | none => exact Bool.beq_comm

end Value

/-! ## Signs of comparison -/

namespace CompareOp

/-- The sign that says from the other side what a sign says. -/
def mirrored : CompareOp → CompareOp
  | eq => eq
  | ne => ne
  | lt => gt
  | le => ge
  | gt => lt
  | ge => le

theorem holds_mirrored (op : CompareOp) (u v : Value) :
    op.mirrored.holds v u = op.holds u v := by
  unfold holds
  rw [Bool.or_comm v.isNull]
  split
  · rfl
  · cases op with
    | eq => exact Value.looselyEquals_comm v u
    | ne => exact congrArg Bool.not (Value.looselyEquals_comm v u)
    | lt | le | gt | ge =>
      simp only [mirrored, Value.compare?_swap u v]
      cases u.compare? v with
      | none => rfl
      | some order => cases order <;> rfl

end CompareOp

/-- **Comparisons do not depend on the side.**  Of any two values, whatever their kinds, the one
    equals the other if the other equals it; the order from the other side is the reverse, and there
    is none exactly if there was none.  So each sign of comparison holds exactly if the mirrored one
    holds from the other side. -/
theorem comparison_mirrored (u v : Value) :
    u.looselyEquals v = v.looselyEquals u ∧
      v.compare? u = (u.compare? v).map Ordering.swap ∧
      (v.compare? u = none ↔ u.compare? v = none) ∧
      ∀ op : CompareOp, op.holds u v = op.mirrored.holds v u := by
  have horder := Value.compare?_swap u v
  refine ⟨Value.looselyEquals_comm u v, horder, ?_, fun op => (op.holds_mirrored u v).symm⟩
  rw [horder, Option.map_eq_none_iff]

end PocketSql
