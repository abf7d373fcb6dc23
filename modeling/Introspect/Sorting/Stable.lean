import Introspect.Sorting.Runs

/-!
# The stable sort

`stableSort` sorts a list by a strict order `before`, keeping entries that do not sort apart in
their order. Inputs of at most `insertionLimit` entries are sorted by insertion from the right;
longer ones are sorted by runs, eagerly up to twice `smallSortLimit` entries, with a stable
quicksort for the runs left unsorted.

The stable quicksort picks its pivot as a median of three entries, taken at an eighth, a half and
seven eighths of the run (recursively, as medians of medians, from 64 entries on), and splits the
run stably into the entries that sort before the pivot and the rest. When nothing sorts before
the pivot, or the pivot does not sort after the pivot of the enclosing call, it splits off the
entries equal to the pivot instead, which need no further sorting. Runs of at most
`smallSortLimit` entries go to the small-input sort, and after too many splits the run is sorted
by runs in eager mode.

With a strict weak order every stable sort gives the same list, so the choice of method only
shows when `before` is not one, as for cells compared across integers and floats above `2 ^ 53`.
Then the result depends on which entries the method compares, and a merge may find that the order
contradicts itself: the result is `none`.
-/

set_option autoImplicit false
set_option relaxedAutoImplicit false

namespace Introspect.Sorting

variable {α : Type}

/-! ### Stable quicksort -/

/-- The position of the median of the entries at `a`, `b` and `c`. -/
def median3 (before : α → α → Bool) (v : Array α) (a b c : Nat) : Option Nat := do
  let x ← v[a]?
  let y ← v[b]?
  let z ← v[c]?
  let ab := before x y
  if ab == before x z then pure (if before y z != ab then c else b) else pure a

/-- The median of three medians of three, recursively, of blocks of `n` entries at `a`, `b`
and `c`. -/
def median3Rec (before : α → α → Bool) (v : Array α) (a b c n : Nat) : Option Nat :=
  if h : 64 ≤ n * 8 then do
    let m := n / 8
    let a' ← median3Rec before v a (a + m * 4) (a + m * 7) m
    let b' ← median3Rec before v b (b + m * 4) (b + m * 7) m
    let c' ← median3Rec before v c (c + m * 4) (c + m * 7) m
    median3 before v a' b' c'
  else median3 before v a b c
termination_by n
decreasing_by all_goals omega

/-- The position of the pivot of a run of at least eight entries. -/
def choosePivot (before : α → α → Bool) (v : Array α) : Option Nat :=
  let m := v.size / 8
  if v.size < 64 then median3 before v 0 (m * 4) (m * 7)
  else median3Rec before v 0 (m * 4) (m * 7) m

/-- Splits a run stably: the entries for which `goesLeft` holds, then the others; the entry at
`pivot` goes left exactly when `pivotLeft` holds. -/
def partitionAt (v : List α) (pivot : Nat) (pivotLeft : Bool) (goesLeft : α → Bool) :
    List α × List α :=
  let side := fun (e : α × Nat) => if e.2 = pivot then pivotLeft else goesLeft e.1
  ((v.zipIdx.filter side).map (·.1), (v.zipIdx.filter (fun e => !side e)).map (·.1))

/-- The stable quicksort with `fuel` calls left, a `limit` of splits, and the pivot of the
enclosing call on the right. -/
def quicksortWith (p : Profile) (before : α → α → Bool) (scratch : Nat) :
    Nat → List α → Nat → Option α → Option (List α)
  | 0, _, _, _ => none
  | fuel + 1, v, limit, ancestor =>
    if v.length ≤ smallSortLimit then smallSort p before v
    else if limit = 0 then
      runSort p before scratch true
        (fun xs => quicksortWith p before scratch fuel xs (2 * Nat.log2 (xs.length ||| 1)) none) v
    else do
      let pos ← choosePivot before v.toArray
      let pivot ← v[pos]?
      let equalFirst := match ancestor with
        | some a => !before a pivot
        | none => false
      let (less, rest) := if equalFirst then ([], v) else partitionAt v pos false (before · pivot)
      if less.isEmpty then
        let (equal, greater) := partitionAt rest pos true (fun x => !before pivot x)
        let sortedGreater ← quicksortWith p before scratch fuel greater (limit - 1) none
        pure (equal ++ sortedGreater)
      else
        let sortedRest ← quicksortWith p before scratch fuel rest (limit - 1) (some pivot)
        let sortedLess ← quicksortWith p before scratch fuel less (limit - 1) ancestor
        pure (sortedLess ++ sortedRest)

/-- The stable quicksort of a run, with a limit of twice the binary logarithm of its length. -/
def stableQuicksort (p : Profile) (before : α → α → Bool) (scratch : Nat) (v : List α) :
    Option (List α) :=
  quicksortWith p before scratch (v.length + 1) v (2 * Nat.log2 (v.length ||| 1)) none

/-! ### Choosing the method -/

/-- The stable sort of a list, or `none` when the sort finds that `before` is not a strict weak
order. -/
def stableSort (p : Profile) (before : α → α → Bool) (v : List α) : Option (List α) :=
  let n := v.length
  if n ≤ insertionLimit then some (insertionSort before v)
  else
    let scratch := p.scratchLength n
    runSort p before scratch (n ≤ 2 * smallSortLimit) (stableQuicksort p before scratch) v

theorem stableSort_of_length_le (p : Profile) (before : α → α → Bool) (v : List α)
    (h : v.length ≤ insertionLimit) : stableSort p before v = some (insertionSort before v) := by
  simp [stableSort, h]

end Introspect.Sorting
