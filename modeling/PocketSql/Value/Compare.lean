/-
  Equality and order of values.

  * `looselyEquals` is the `=` of a condition: numbers by value, dates by instant, all else by
    their text;
  * `compare?` is the order of `<`, `>` and sorting; values of different kinds have none unless
    they are both read as numbers or both as dates;
  * `sameAs` is equality of the same kind of value;
  * `key?` is the identity under which a unique column knows a value.
-/
import PocketSql.Value.Basic

namespace PocketSql

/-- The identity of a value in a unique column. -/
inductive UniqueKey
  | integer (i : Int)
  | decimal (x : Binary64)
  | text (s : String)
  | boolean (b : Bool)
  | instant (nanos : Int)
deriving DecidableEq

namespace Value

/-- A timestamp. -/
def isDated : Value → Bool
  | instant _ => true
  | _ => false

/-- The order of two values one of which is a timestamp, if the other is one or spells one. -/
def compareDates? (a b : Value) : Option Ordering :=
  if a.isDated || b.isDated then
    match a.timestamp?, b.timestamp? with
    | some s, some t => some (compare s.nanos t.nanos)
    | _, _ => none
  else none

/-- The numeric readings of two values one of which is a number, if the other has one too. -/
def numbers? (a b : Value) : Option (Binary64 × Binary64) :=
  if a.isNumeric || b.isNumeric then
    match a.number?, b.number? with
    | some x, some y => some (x, y)
    | _, _ => none
  else none

/-- Equality in a condition.  The absent value equals nothing. -/
def looselyEquals (a b : Value) : Bool :=
  if a.isNull || b.isNull then false
  else
    match numbers? a b with
    | some (x, y) => x.equals y
    | none =>
      match compareDates? a b with
      | some order => order == .eq
      | none => a.display == b.display

/-- The order of texts, by code points. -/
def compareText (s t : String) : Ordering :=
  if s < t then .lt else if s = t then .eq else .gt

/-- The order of truth values: false before true. -/
def compareBool (a b : Bool) : Ordering :=
  compare a.toNat b.toNat

/-- The order of two values, if they have one. -/
def compare? (a b : Value) : Option Ordering :=
  if a.isNull || b.isNull then none
  else if a.isNumeric || b.isNumeric then
    match numbers? a b with
    | some (x, y) => x.compare? y
    | none => none
  else
    match compareDates? a b with
    | some order => some order
    | none =>
      match a, b with
      | text s, text t => some (compareText s t)
      | boolean p, boolean q => some (compareBool p q)
      | _, _ => none

/-- Equality of two values of one kind; timestamps by instant. -/
def sameAs : Value → Value → Bool
  | null, null => true
  | integer i, integer j => i == j
  | decimal x, decimal y => x.equals y
  | text s, text t => s == t
  | boolean p, boolean q => p == q
  | instant s, instant t => s.nanos == t.nanos
  | _, _ => false

/-- The identity of a value in a unique column.  A whole number that fits is known as an integer,
    however it is written; the absent value has no identity. -/
def key? : Value → Option UniqueKey
  | null => none
  | integer i => some (.integer i.toInt)
  | decimal x =>
    match x.whole? with
    | some i => if i.natAbs < signedLimit then some (.integer i) else some (.decimal x)
    | none => some (.decimal x)
  | text s => some (.text s)
  | boolean b => some (.boolean b)
  | instant t => some (.instant t.nanos)

end Value

end PocketSql
