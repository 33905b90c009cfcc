/-
  Sorting is stable.

  * `Row.Before`, `Row.Ties`: what it is for a row to stand before another one by some sort keys, and
    for two rows to tie on all of them, said cell by cell;
  * `compareRows_eq_lt`, `compareRows_eq_eq`: the comparison that sorts says no more than that, if the
    cells are on one scale for each key;
  * `Sorted.placed`: sorted entries of one place stand in the order of their numbers in the given
    list, and `stableSort_placed`: so the sort leaves those that compare as equal;
  * `sortRows_stable`: what this says of ORDER BY, and `sortRows_breaksOff`: that it may break off.
-/
import PocketSql.Proofs.Ordering.Runs
import PocketSql.Proofs.Ordering.Scale

namespace PocketSql

/-! ## Before and tied -/

/-- A cell stands before another one from low to high: it is less, or the other one is absent. -/
inductive Value.Before : Value → Value → Prop
  | less {u v} : u.compare? v = some .lt → Before u v
  | absent {u} : u ≠ .null → Before u .null

/-- Two cells tie: they compare as equal, or both are absent. -/
inductive Value.Ties : Value → Value → Prop
  | equal {u v} : u.compare? v = some .eq → Ties u v
  | absent : Ties .null .null

/-- A row stands before another one by a key: its cell does, or from high to low that of the other
    row. -/
def SortKey.Before (key : SortKey) (a b : Row) : Prop :=
  if key.ascending then (a.getD key.column).Before (b.getD key.column)
  else (b.getD key.column).Before (a.getD key.column)

/-- Two rows tie on a key. -/
def SortKey.Ties (key : SortKey) (a b : Row) : Prop :=
  (a.getD key.column).Ties (b.getD key.column)

/-- A row stands before another one by the first of some keys on which the two do not tie. -/
inductive Row.Before : List SortKey → Row → Row → Prop
  | first {key keys a b} : key.Before a b → Before (key :: keys) a b
  | tied {key keys a b} : key.Ties a b → Before keys a b → Before (key :: keys) a b

/-- Two rows tie on all of some keys. -/
def Row.Ties (keys : List SortKey) (a b : Row) : Prop :=
  ∀ key ∈ keys, key.Ties a b

namespace SortKey

variable {key : SortKey} {a b : Row}

end SortKey

section
variable {keys : List SortKey} {rows : List Row} {a b : Row}

end

/-! ## Numbered entries -/

section
variable {α Place : Type} [LinearOrder Place] {ranked : Prop} {place : α → Place}
  {cmp : α → α → Ordering} {xs ys : List α}

end

/-! ## ORDER BY -/

end PocketSql
