import Introspect.Sorting.SmallSort

/-!
# Sorting by runs

The sort for longer inputs cuts its input into runs and merges them. A run is either a stretch
that is already in order (nondescending, or strictly descending and then reversed) of at least
`minGoodRun` entries, or, when there is none, a block that is sorted at once by the small-input
sort (eager mode, for inputs of at most twice `smallSortLimit` entries) or left unsorted for
later (lazy mode).

Which runs merge when follows the powersort rule: the boundary between two runs has a depth, the
position of the highest bit in which the scaled midpoints of the two runs differ, and a boundary
is merged once a later boundary is no deeper. A merge is logical while both runs are unsorted and
the scratch space can hold them; otherwise unsorted sides are sorted by `sortRun` and the two
runs are merged for real. A run left unsorted at the end is sorted by `sortRun` as a whole.
-/

set_option autoImplicit false
set_option relaxedAutoImplicit false

namespace Introspect.Sorting

variable {α : Type}

/-- A run of entries, and whether it is known to be sorted. -/
structure Run (α : Type) where
  items : List α
  sorted : Bool

/-- The length of the strictly descending stretch that continues after `prev`. -/
def descendingCount (before : α → α → Bool) (prev : α) : List α → Nat
  | [] => 0
  | x :: xs => if before x prev then descendingCount before x xs + 1 else 0

/-- The length of the nondescending stretch that continues after `prev`. -/
def nondescendingCount (before : α → α → Bool) (prev : α) : List α → Nat
  | [] => 0
  | x :: xs => if before x prev then 0 else nondescendingCount before x xs + 1

/-- The length of the ordered stretch at the front, and whether it is strictly descending. -/
def existingRun (before : α → α → Bool) : List α → Nat × Bool
  | v0 :: v1 :: rest =>
    if before v1 v0 then (descendingCount before v1 rest + 2, true)
    else (nondescendingCount before v1 rest + 2, false)
  | xs => (xs.length, false)

/-- An approximate square root: `2 ^ s` with `s` half the bit length, improved by one Newton
step. -/
def sqrtApprox (n : Nat) : Nat :=
  let shift := (1 + Nat.log2 (n ||| 1)) / 2
  ((1 <<< shift) + (n >>> shift)) / 2

/-- The least length of an ordered stretch that is kept as a run, for an input of `n` entries. -/
def minGoodRun (n : Nat) : Nat := if n ≤ 4096 then min (n - n / 2) 64 else sqrtApprox n

/-- The factor that scales positions of an input of `n` entries to the range below `2 ^ 62`. -/
def scaleFactor (n : Nat) : Nat := (Nat.pow 2 62 + n - 1) / n

/-- The depth of the boundary at `mid` between the runs `[left, mid)` and `[mid, right)`: the
number of leading zero bits, in 64 bits, of the two scaled midpoints' exclusive or. -/
def boundaryDepth (scale left mid right : Nat) : Nat :=
  let z := Nat.xor (scale * (left + mid) % Nat.pow 2 64) (scale * (mid + right) % Nat.pow 2 64)
  64 - (if z = 0 then 0 else z.log2 + 1)

/-- The next run at the front of `rest`, and what follows it. -/
def createRun (p : Profile) (before : α → α → Bool) (eager : Bool) (minGood : Nat)
    (rest : List α) : Option (Run α × List α) :=
  let n := rest.length
  let (len, descending) := existingRun before rest
  if minGood ≤ n ∧ minGood ≤ len then
    let items := rest.take len
    some (⟨if descending then items.reverse else items, true⟩, rest.drop len)
  else if eager then do
    let k := min smallSortLimit n
    let sorted ← smallSort p before (rest.take k)
    pure (⟨sorted, true⟩, rest.drop k)
  else
    let k := min minGood n
    some (⟨rest.take k, false⟩, rest.drop k)

/-- Merges two adjacent runs: logically while both are unsorted and fit the scratch space,
otherwise for real after sorting the unsorted sides. -/
def mergeLogical (before : α → α → Bool) (scratch : Nat) (sortRun : List α → Option (List α))
    (left right : Run α) : Option (Run α) :=
  if scratch < left.items.length + right.items.length ∨ left.sorted ∨ right.sorted then do
    let l ← if left.sorted then pure left.items else sortRun left.items
    let r ← if right.sorted then pure right.items else sortRun right.items
    pure ⟨mergeRuns before l r, true⟩
  else pure ⟨left.items ++ right.items, false⟩

/-- Merges `prev` with the runs below it on the stack whose boundaries are at least `depth` deep.
The bottom entry of the stack is never merged. -/
def collapse (before : α → α → Bool) (scratch : Nat) (sortRun : List α → Option (List α))
    (depth : Nat) : Run α → List (Run α × Nat) → Option (Run α × List (Run α × Nat))
  | prev, (left, d) :: below@(_ :: _) =>
    if depth ≤ d then do
      let merged ← mergeLogical before scratch sortRun left prev
      collapse before scratch sortRun depth merged below
    else some (prev, (left, d) :: below)
  | prev, stack => some (prev, stack)

/-- The run loop: `scan` entries are consumed, `prev` is the last run, `stack` the runs before
it with the depths of their right boundaries. -/
def runLoop (p : Profile) (before : α → α → Bool) (scratch : Nat) (eager : Bool)
    (minGood scale : Nat) (sortRun : List α → Option (List α)) :
    Nat → Nat → List α → Run α → List (Run α × Nat) → Option (List α)
  | 0, _, _, _, _ => none
  | fuel + 1, scan, rest, prev, stack =>
    match rest with
    | [] => do
      let (whole, _) ← collapse before scratch sortRun 0 prev stack
      if whole.sorted then pure whole.items else sortRun whole.items
    | _ :: _ => do
      let (next, rest') ← createRun p before eager minGood rest
      let d := boundaryDepth scale (scan - prev.items.length) scan (scan + next.items.length)
      let (prev', stack') ← collapse before scratch sortRun d prev stack
      runLoop p before scratch eager minGood scale sortRun fuel (scan + next.items.length) rest'
        next ((prev', d) :: stack')

/-- Sorts by runs; `sortRun` sorts the runs left unsorted. -/
def runSort (p : Profile) (before : α → α → Bool) (scratch : Nat) (eager : Bool)
    (sortRun : List α → Option (List α)) (v : List α) : Option (List α) :=
  let n := v.length
  if n < 2 then some v
  else runLoop p before scratch eager (minGoodRun n) (scaleFactor n) sortRun (n + 1) 0 v ⟨[], true⟩ []

end Introspect.Sorting
