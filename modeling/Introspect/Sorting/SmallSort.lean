import Introspect.Sorting.Insertion
import Introspect.Sorting.Merge

/-!
# Sort profiles and the small-input sort

The stable sort of this library adapts to its input and to the width of the entries it moves. A
profile records that width in bytes. From it follow two decisions: whether the small-input sort
presorts eight entries at a time or four, and how many entries the scratch space holds, which
bounds the runs that may be left unsorted for later. Inputs of at most `insertionLimit` entries
are sorted by insertion alone; runs of at most `smallSortLimit` entries are sorted by the
small-input sort.

The small-input sort sorts a run in two halves that are then merged from both ends. Each half
starts from a presorted block: eight entries for narrow entries and halves of at least eight,
four entries for other runs of eight or more, one entry otherwise. The rest of the half is
inserted from the right. Blocks of four are sorted with five comparisons (`sort4`), blocks of
eight as two blocks of four merged from both ends (`sort8`).

The result is `none` when a merge from both ends finds its ends apart, that is when `before` is
not a strict weak order.
-/

set_option autoImplicit false
set_option relaxedAutoImplicit false

namespace Introspect.Sorting

/-! ### Profiles -/

/-- The width of the entries a sort moves. -/
structure Profile where
  entryBytes : Nat
deriving DecidableEq, Repr

namespace Profile

/-- Entries of at most sixteen bytes are narrow: the small-input sort presorts them eight at a
time once it has sixteen or more. -/
def narrow (p : Profile) : Bool := p.entryBytes ≤ 16

/-- The number of entries the scratch space holds when sorting `n` entries: a 4096-byte buffer,
unless more is needed, namely at least half the input, the whole input up to 8 MB, and never
fewer than 48 entries. -/
def scratchLength (p : Profile) (n : Nat) : Nat :=
  let needed := max (max (n - n / 2) (min n (8000000 / p.entryBytes))) 48
  let buffer := 4096 / p.entryBytes
  if needed ≤ buffer then buffer else needed

end Profile

/-- Inputs of at most this many entries are sorted by insertion alone. -/
def insertionLimit : Nat := 20

/-- Runs of at most this many entries are sorted by the small-input sort. -/
def smallSortLimit : Nat := 32

/-! ### The small-input sort -/

variable {α : Type}

/-- Four entries, stably sorted by five comparisons: two ordered pairs, then the least and the
greatest of the four, then the two left in between. -/
def sort4 (before : α → α → Bool) (v0 v1 v2 v3 : α) : List α :=
  let c1 := before v1 v0
  let c2 := before v3 v2
  let a := if c1 then v1 else v0
  let b := if c1 then v0 else v1
  let c := if c2 then v3 else v2
  let d := if c2 then v2 else v3
  let c3 := before c a
  let c4 := before d b
  let least := if c3 then c else a
  let greatest := if c4 then b else d
  let innerLeft := if c3 then a else if c4 then c else b
  let innerRight := if c4 then d else if c3 then b else c
  let c5 := before innerRight innerLeft
  [least, if c5 then innerRight else innerLeft, if c5 then innerLeft else innerRight, greatest]

/-- Sorts a block of exactly four entries. -/
def presort4 (before : α → α → Bool) : List α → Option (List α)
  | [v0, v1, v2, v3] => some (sort4 before v0 v1 v2 v3)
  | _ => none

/-- Sorts a block of exactly eight entries: two blocks of four merged from both ends. -/
def sort8 (before : α → α → Bool) : List α → Option (List α)
  | [v0, v1, v2, v3, v4, v5, v6, v7] =>
    mergeTwoEnded before (sort4 before v0 v1 v2 v3 ++ sort4 before v4 v5 v6 v7).toArray
  | _ => none

/-- The size of the presorted block of each half of a run of `n` entries. -/
def presortedCount (p : Profile) (n : Nat) : Nat :=
  if p.narrow && 16 ≤ n then 8 else if 8 ≤ n then 4 else 1

/-- One half: its presorted block, then the rest inserted from the right. -/
def sortHalf (before : α → α → Bool) (count : Nat) (half : List α) : Option (List α) := do
  let block := half.take count
  let start ← if count = 8 then sort8 before block
    else if count = 4 then presort4 before block
    else pure block
  pure (placeAll before start.reverse (half.drop count)).reverse

/-- The small-input sort of a run. -/
def smallSort (p : Profile) (before : α → α → Bool) (v : List α) : Option (List α) :=
  let n := v.length
  if n < 2 then some v
  else do
    let count := presortedCount p n
    let a ← sortHalf before count (v.take (n / 2))
    let b ← sortHalf before count (v.drop (n / 2))
    mergeTwoEnded before (a ++ b).toArray

end Introspect.Sorting
