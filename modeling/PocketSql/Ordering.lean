/-
  ORDER BY.

  * `compareRows` compares two rows by sort keys, the first difference deciding.  The absent value
    stands after all others when ascending; values without an order count as equal;
  * `sortRows` sorts rows by some keys, or fails if that breaks off.

  Rows are sorted by `stableSort`: rows of which neither is before the other keep their order.
  * `insertionSort` moves every entry left past the ones it is before; it sorts up to 20 entries;
  * `smallSort` sorts up to 32: two halves, merged from both ends at once.  If the two ends do not
    meet, the comparison contradicts itself, and the sort breaks off with nothing;
  * `sortRuns` cuts a list into the runs that it already has, and merges them, those that lie deepest
    in the tree of all merges first.  What lies between them waits to be sorted in longer pieces;
  * `quickSort` sorts these: it parts them at pivots.
-/
import PocketSql.Error
import PocketSql.Number.Integer
import PocketSql.Statement.Basic

namespace PocketSql

variable {α : Type}

section
variable (isBefore : α → α → Bool)

/-! ## Few entries -/

/-- A list, last entry first, with an entry that has moved left past the ones it is before. -/
def insertFromEnd (x : α) : List α → List α
  | [] => [x]
  | y :: ys => if isBefore x y then y :: insertFromEnd x ys else x :: y :: ys

/-- A sorted list with entries moved into it one after the other. -/
def insertAll (sorted xs : List α) : List α :=
  (xs.foldl (fun sorted x => insertFromEnd isBefore x sorted) sorted.reverse).reverse

/-- A list sorted by moving its entries left one after the other. -/
def insertionSort (xs : List α) : List α :=
  insertAll isBefore [] xs

/-- Two entries, the second one first if it is before the first one. -/
def inOrder (x y : α) : α × α :=
  if isBefore y x then (y, x) else (x, y)

/-- Four entries, sorted by five comparisons: two pairs, their first and last entries, and the two
    that are left. -/
def sortFour (w x y z : α) : List α :=
  let (a, b) := inOrder isBefore w x
  let (c, d) := inOrder isBefore y z
  let first := if isBefore c a then c else a
  let last := if isBefore d b then b else d
  let left := if isBefore c a then a else if isBefore d b then c else b
  let right := if isBefore d b then d else if isBefore c a then b else c
  let (left, right) := inOrder isBefore left right
  [first, left, right, last]

/-- A half of a list, sorted; of a list of eight entries or more, the first four are sorted as
    such. -/
def sortHalf (long : Bool) (xs : List α) : List α :=
  match long, xs with
  | true, w :: x :: y :: z :: rest => insertAll isBefore (sortFour isBefore w x y z) rest
  | _, _ => insertionSort isBefore xs

/-! ## Merging -/

/-- Two lists of which the first entries are merged. -/
structure Merging (α : Type) where
  merged : List α
  /-- What is left of the first list. -/
  left : List α
  /-- What is left of the second list. -/
  right : List α

/-- The same lists with an entry merged before. -/
def Merging.push (x : α) (m : Merging α) : Merging α :=
  { m with merged := x :: m.merged }

/-- The first `n` entries of two lists, merged; fewer if one list ends before.  An entry of the second
    list goes first only if it is before that of the first list. -/
def mergeFirst : Nat → List α → List α → Merging α
  | n + 1, x :: xs, y :: ys =>
    if isBefore y x then (mergeFirst n (x :: xs) ys).push y
    else (mergeFirst n xs (y :: ys)).push x
  | _, xs, ys => ⟨[], xs, ys⟩

/-- Two neighbouring lists, merged from the first entries on. -/
def mergeForward (left right : List α) : List α :=
  let m := mergeFirst isBefore (left.length + right.length) left right
  m.merged ++ (m.left ++ m.right)

/-- Two neighbouring lists, merged from the last entries back. -/
def mergeBackward (left right : List α) : List α :=
  (mergeForward (fun x y => isBefore y x) right.reverse left.reverse).reverse

/-- Two neighbouring lists merged from both ends, `left.length` entries from each; nothing if one end
    takes an entry that the other one has taken.  At most one entry is left between them. -/
def mergeBothEnds (left right : List α) : Option (List α) :=
  let front := mergeFirst isBefore left.length left right
  let back := mergeFirst (fun x y => isBefore y x) left.length right.reverse left.reverse
  -- how many entries of each list neither end has taken
  let leftRest := front.left.length + back.right.length
  let rightRest := front.right.length + back.left.length
  if left.length ≤ leftRest ∧ right.length ≤ rightRest then
    some (front.merged ++ (front.left.take (leftRest - left.length) ++
      front.right.take (rightRest - right.length)) ++ back.merged.reverse)
  else none

/-- A list of up to 32 entries, sorted; nothing if that breaks off. -/
def smallSort (xs : List α) : Option (List α) :=
  let half := xs.length / 2
  let long := decide (8 ≤ xs.length)
  if xs.length < 2 then some xs
  else
    mergeBothEnds isBefore (sortHalf isBefore long (xs.take half))
      (sortHalf isBefore long (xs.drop half))

/-! ## Runs -/

/-- Neighbouring entries of a list. -/
structure Run (α : Type) where
  entries : List α
  /-- They are in order. -/
  sorted : Bool

/-- The first entries of a list that follow one another in a way, and the entries after them. -/
def takeChain (follows : α → α → Bool) (x : α) : List α → List α × List α
  | [] => ([x], [])
  | y :: ys =>
    if follows x y then
      let (chain, rest) := takeChain follows y ys
      (x :: chain, rest)
    else ([x], y :: ys)

/-- The first entries of a list that are in order, or that go down and are turned around; and the
    entries after them. -/
def takeRun : List α → List α × List α
  | x :: y :: ys =>
    if isBefore y x then
      let (chain, rest) := takeChain (fun x y => isBefore y x) x (y :: ys)
      (chain.reverse, rest)
    else takeChain (fun x y => !isBefore y x) x (y :: ys)
  | xs => (xs, [])

/-- The run at the beginning of a list, and the entries after it.  A run that is there counts from
    `good` entries on.  Else an eager sort sorts up to 32 entries, and another one takes `good`
    entries as they are. -/
def nextRun (eager : Bool) (good : Nat) (xs : List α) : Option (Run α × List α) :=
  let (run, rest) := takeRun isBefore xs
  if good ≤ run.length then some (⟨run, true⟩, rest)
  else if eager then (smallSort isBefore (xs.take 32)).map fun run => (⟨run, true⟩, xs.drop 32)
  else some (⟨xs.take good, false⟩, xs.drop good)

/-- A list of up to `n` entries, cut into runs. -/
def cutRuns (eager : Bool) (good : Nat) : Nat → List α → Option (List (Run α))
  | n + 1, x :: xs => do
    let (run, rest) ← nextRun isBefore eager good (x :: xs)
    let runs ← cutRuns eager good n rest
    return run :: runs
  | _, _ => some []

section
variable (sort : List α → Option (List α)) (room : Nat)

/-- The entries of a run in order. -/
def Run.inOrder (run : Run α) : Option (List α) :=
  if run.sorted then some run.entries else sort run.entries

/-- Two neighbouring runs as one.  Two runs that are not sorted wait to be sorted together, if there
    is room for that. -/
def Run.join (left right : Run α) : Option (Run α) :=
  if left.sorted || right.sorted || decide (room < left.entries.length + right.entries.length) then do
    let left ← left.inOrder sort
    let right ← right.inOrder sort
    let merged :=
      if left.length ≤ right.length then mergeForward isBefore left right
      else mergeBackward isBefore left right
    return ⟨merged, true⟩
  else some ⟨left.entries ++ right.entries, false⟩

/-- A run with the runs of a stack before it joined to it, as long as they lie at a depth or deeper. -/
def collapse (depth : Nat) : List (Nat × Run α) → Run α → Option (List (Nat × Run α) × Run α)
  | (d, left) :: stack, run =>
    if depth ≤ d then do
      let run ← left.join isBefore sort room run
      collapse depth stack run
    else some ((d, left) :: stack, run)
  | [], run => some ([], run)

/-- How deep two neighbouring runs lie in the tree of all merges of `n` entries: how many leading bits
    of 64 the places of their middles share. -/
def mergeDepth (n start middle stop : Nat) : Nat :=
  let scale := (0x4000000000000000 + n - 1) / n
  let bits := (scale * (start + middle)) ^^^ (scale * (middle + stop))
  if bits = 0 then 64 else 63 - bits.log2

/-- A run that begins at a place, the runs of a stack before it and some runs after it, joined to
    one. -/
def mergeRuns (n start : Nat) (stack : List (Nat × Run α)) (run : Run α) :
    List (Run α) → Option (Run α)
  | [] => (collapse isBefore sort room 0 stack run).map Prod.snd
  | next :: runs => do
    let middle := start + run.entries.length
    let depth := mergeDepth n start middle (middle + next.entries.length)
    let (stack, run) ← collapse isBefore sort room depth stack run
    mergeRuns n middle ((depth, run) :: stack) next runs

end

/-- About the square root of a number. -/
def aboutSqrt (n : Nat) : Nat :=
  let shift := (1 + n.log2) / 2
  (twoPow shift + n / twoPow shift) / 2

/-- The length from which on a run of a list of `n` entries counts. -/
def goodLength (n : Nat) : Nat :=
  if n ≤ 4096 then min (n - n / 2) 64 else aboutSqrt n

/-- A list, sorted by merging its runs; `sort` is for those that are left unsorted. -/
def sortRuns (sort : List α → Option (List α)) (room : Nat) (eager : Bool) (xs : List α) :
    Option (List α) := do
  let n := xs.length
  match ← cutRuns isBefore eager (goodLength n) n xs with
  | [] => return []
  | run :: runs =>
    let run ← mergeRuns isBefore sort room n 0 [] run runs
    run.inOrder sort

/-! ## Many entries -/

/-- The middle one of three entries. -/
def median (x y z : α) : α :=
  if isBefore x y == isBefore x z then
    if isBefore y z == isBefore x y then y else z
  else x

/-- The entry at a place that stands for `n` entries from there on: the median of three that stand for
    an eighth of them each, if there are eight or more. -/
def entryFor (first : α) (xs : List α) (place n : Nat) : α :=
  if n < 8 then xs.getD place first
  else
    median isBefore (entryFor first xs place (n / 8))
      (entryFor first xs (place + 4 * (n / 8)) (n / 8))
      (entryFor first xs (place + 7 * (n / 8)) (n / 8))
termination_by n

/-- A list, parted at pivots up to a depth and then sorted by merging; none of its entries is before
    `least`.  If none is before the pivot, those that tie with it are in order already. -/
def quickSort : Nat → Option α → List α → Option (List α)
  | _, _, [] => some []
  | 0, _, xs@(_ :: _) =>
    -- an eager sort leaves no run unsorted
    if xs.length ≤ 32 then smallSort isBefore xs
    else sortRuns isBefore (smallSort isBefore) xs.length true xs
  | depth + 1, least, xs@(first :: _) =>
    if xs.length ≤ 32 then smallSort isBefore xs
    else
      let pivot := entryFor isBefore first xs 0 xs.length
      let (before, others) := xs.partition fun x => isBefore x pivot
      if before.isEmpty || least.any fun p => !isBefore p pivot then
        let (ties, greater) := xs.partition fun x => !isBefore pivot x
        (quickSort depth none greater).map (ties ++ ·)
      else do
        let others ← quickSort depth (some pivot) others
        let before ← quickSort depth least before
        return before ++ others

/-- How many of `n` rows may wait to be sorted together: those that 8 million bytes hold, 24 for each
    row, and at least half of them. -/
def roomFor (n : Nat) : Nat :=
  max (n - n / 2) (min n 333333)

/-- A list, sorted; nothing if the sort breaks off. -/
def stableSort (xs : List α) : Option (List α) :=
  let n := xs.length
  if n ≤ 20 then some (insertionSort isBefore xs)
  else
    sortRuns isBefore (fun xs => quickSort isBefore (2 * xs.length.log2) none xs) (roomFor n)
      (decide (n ≤ 64)) xs

end

/-! ## Rows -/

/-- The order of two cells when ascending. -/
def compareCells (a b : Value) : Ordering :=
  match a.isNull, b.isNull with
  | true, true => .eq
  | true, false => .gt
  | false, true => .lt
  | false, false => (a.compare? b).getD .eq

/-- The order of two rows by one key. -/
def SortKey.compare (key : SortKey) (a b : Row) : Ordering :=
  let order := compareCells (a.getD key.column) (b.getD key.column)
  if key.ascending then order else order.swap

/-- The order of two rows by some keys. -/
def compareRows (keys : List SortKey) (a b : Row) : Ordering :=
  match keys with
  | [] => .eq
  | key :: keys => (key.compare a b).then (compareRows keys a b)

/-- Rows sorted by some keys; without keys they stay as they are. -/
def sortRows (keys : List SortKey) (rows : List Row) : Except SqlError (List Row) :=
  if keys.isEmpty then .ok rows
  else
    match stableSort (fun a b => compareRows keys a b == .lt) rows with
    | some sorted => .ok sorted
    | none => .error .contradictoryOrder

end PocketSql
