/-!
# Merging runs

Two adjacent sorted runs are merged stably: of two entries that do not sort apart, the one from
the left run comes first. `mergeRuns` works from the front when the left run is the shorter and
from the back otherwise; with a strict weak order both give the same list.

`mergeTwoEnded` merges the two halves of an array from both ends at once, one entry from the
front and one from the back per step. Each end only ever reads unread entries if the halves are
sorted; at the end it checks that both ends met, and reports `none` when they did not, which can
only happen when the order is not a strict weak order.
-/

set_option autoImplicit false
set_option relaxedAutoImplicit false

namespace Introspect.Sorting

variable {α : Type}

/-- The stable merge from the front: an entry of the right run goes first only when it sorts
before the next entry of the left run. -/
def mergeFront (before : α → α → Bool) : List α → List α → List α
  | [], ys => ys
  | x :: xs, [] => x :: xs
  | x :: xs, y :: ys =>
    if before y x then y :: mergeFront before (x :: xs) ys else x :: mergeFront before xs (y :: ys)
termination_by xs ys => xs.length + ys.length

/-- The stable merge from the back, of two runs given last entry first: an entry of the left run
goes last only when the last entry of the right run sorts before it. -/
def mergeFromBack (before : α → α → Bool) : List α → List α → List α
  | [], ys => ys
  | x :: xs, [] => x :: xs
  | x :: xs, y :: ys =>
    if before y x then x :: mergeFromBack before xs (y :: ys) else y :: mergeFromBack before (x :: xs) ys
termination_by xs ys => xs.length + ys.length

/-- Merges two adjacent runs, from the front when the left run is not longer than the right one,
from the back otherwise. -/
def mergeRuns (before : α → α → Bool) (left right : List α) : List α :=
  if left.isEmpty || right.isEmpty then left ++ right
  else if left.length ≤ right.length then mergeFront before left right
  else (mergeFromBack before left.reverse right.reverse).reverse

/-- The state of a merge from both ends: the next unread positions of the left and right halves
seen from the front, the ends of their unread parts seen from the back, the entries written from
the front (last written first) and those written from the back (in order). -/
structure TwoEnded (α : Type) where
  left : Nat
  right : Nat
  leftEnd : Nat
  rightEnd : Nat
  front : List α
  back : List α

/-- One step at each end. -/
def TwoEnded.step (before : α → α → Bool) (src : Array α) (s : TwoEnded α) :
    Option (TwoEnded α) := do
  if s.leftEnd = 0 ∨ s.rightEnd = 0 then none
  let l ← src[s.left]?
  let r ← src[s.right]?
  let lb ← src[s.leftEnd - 1]?
  let rb ← src[s.rightEnd - 1]?
  let fromLeft := !before r l
  let fromRight := !before rb lb
  pure {
    left := if fromLeft then s.left + 1 else s.left
    right := if fromLeft then s.right else s.right + 1
    leftEnd := if fromRight then s.leftEnd else s.leftEnd - 1
    rightEnd := if fromRight then s.rightEnd - 1 else s.rightEnd
    front := (if fromLeft then l else r) :: s.front
    back := (if fromRight then rb else lb) :: s.back }

/-- Merges the halves `src[0, n/2)` and `src[n/2, n)` from both ends; `none` when the ends do not
meet. -/
def mergeTwoEnded (before : α → α → Bool) (src : Array α) : Option (List α) := do
  let n := src.size
  let h := n / 2
  let s ← (List.range h).foldlM (fun s _ => s.step before src) (⟨0, h, h, n, [], []⟩ : TwoEnded α)
  let (s, middle) ← if n % 2 = 1 then do
      let fromLeft := decide (s.left < s.leftEnd)
      let x ← src[if fromLeft then s.left else s.right]?
      pure ({ s with left := if fromLeft then s.left + 1 else s.left,
                     right := if fromLeft then s.right else s.right + 1 }, [x])
    else pure (s, [])
  if s.left = s.leftEnd ∧ s.right = s.rightEnd then some (s.front.reverse ++ middle ++ s.back)
  else none

theorem mergeFront_nil_right (before : α → α → Bool) (xs : List α) :
    mergeFront before xs [] = xs := by
  cases xs <;> simp [mergeFront]

end Introspect.Sorting
