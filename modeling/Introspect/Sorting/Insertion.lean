/-!
# Insertion from the right

An insertion sort that takes the entries in order and lets each one move left past the entries
already placed that it sorts before, stopping at the first that it does not. With a strict weak
order this is the stable sort; with any relation it is a permutation of its input
(`insertionSort_perm`).

The placed entries are held last entry first, so that moving left is walking down a list.
-/

set_option autoImplicit false
set_option relaxedAutoImplicit false

namespace Introspect.Sorting

variable {α : Type}

/-- Places `x` into a list held last element first: it passes the elements that `x` sorts
before. -/
def placeFromRight (before : α → α → Bool) (x : α) : List α → List α
  | [] => [x]
  | y :: ys => if before x y then y :: placeFromRight before x ys else x :: y :: ys

/-- Places every entry of `xs`, in order, into `placed`, which is held last element first. -/
def placeAll (before : α → α → Bool) (placed xs : List α) : List α :=
  xs.foldl (fun acc x => placeFromRight before x acc) placed

/-- The insertion sort by a strict order `before`, each entry inserted from the right. -/
def insertionSort (before : α → α → Bool) (xs : List α) : List α :=
  (placeAll before [] xs).reverse

theorem placeFromRight_perm (before : α → α → Bool) (x : α) (ys : List α) :
    (placeFromRight before x ys).Perm (x :: ys) := by
  induction ys with
  | nil => simp [placeFromRight]
  | cons y ys ih =>
    unfold placeFromRight
    split
    · exact (ih.cons y).trans (List.Perm.swap x y ys)
    · exact List.Perm.refl _

theorem placeAll_perm (before : α → α → Bool) (xs placed : List α) :
    (placeAll before placed xs).Perm (xs.reverse ++ placed) := by
  induction xs generalizing placed with
  | nil => simp [placeAll]
  | cons x xs ih =>
    simp only [placeAll, List.foldl_cons, List.reverse_cons, List.append_assoc,
      List.singleton_append] at ih ⊢
    exact (ih _).trans (List.Perm.append_left _ (placeFromRight_perm before x placed))

theorem insertionSort_perm (before : α → α → Bool) (xs : List α) :
    (insertionSort before xs).Perm xs := by
  unfold insertionSort
  have h := placeAll_perm before xs []
  rw [List.append_nil] at h
  exact (List.reverse_perm _).trans (h.trans (List.reverse_perm xs))

end Introspect.Sorting
