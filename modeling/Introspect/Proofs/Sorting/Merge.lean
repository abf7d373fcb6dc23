import Introspect.Sorting.Merge
import Introspect.Proofs.Sorting.Spec

/-!
# Merging runs

The merge from the front is the library's stable merge by "not after" (`mergeFront_eq_merge`).
The merge from the back, of runs given last entry first, is the merge from the front by the
opposite order with the runs exchanged (`mergeFromBack_eq_mergeFront`): read backwards, an entry
of the left run goes last only when it sorts after the right run's last entry. By the opposite
order the reversed runs are sorted, and a stable sort by the opposite order, read backwards, is a
stable sort, so both merges give the same list on sorted runs (`mergeRuns_eq_merge`).

With any relation, a merge keeps the entries of both runs (`mergeRuns_perm`).
-/

set_option autoImplicit false
set_option relaxedAutoImplicit false

namespace Introspect.Sorting

variable {α : Type} {P : α → Prop} {before : α → α → Bool}

theorem mergeFront_eq_merge (before : α → α → Bool) (l r : List α) :
    mergeFront before l r = l.merge r fun a b => !before b a := by
  induction l generalizing r with
  | nil => simp [mergeFront]
  | cons x xs ih =>
    induction r with
    | nil => simp [mergeFront]
    | cons y ys ihr =>
      rw [mergeFront, List.cons_merge_cons]
      cases hyx : before y x <;> simp [ih, ihr]

/-- Merging from the back is merging from the front by the opposite order, the runs exchanged. -/
theorem mergeFromBack_eq_mergeFront (before : α → α → Bool) (l r : List α) :
    mergeFromBack before l r = mergeFront (fun a b => before b a) r l := by
  induction l generalizing r with
  | nil => simp [mergeFromBack, mergeFront_nil_right]
  | cons x xs ih =>
    induction r with
    | nil => simp [mergeFromBack, mergeFront]
    | cons y ys ihr =>
      rw [mergeFromBack, mergeFront]
      cases hyx : before y x <;> simp [ih, ihr]

theorem mergeRuns_perm (before : α → α → Bool) (l r : List α) :
    (mergeRuns before l r).Perm (l ++ r) := by
  unfold mergeRuns
  split
  · exact List.Perm.refl _
  split
  · rw [mergeFront_eq_merge]
    exact List.merge_perm_append _
  · rw [mergeFromBack_eq_mergeFront, mergeFront_eq_merge]
    refine (List.reverse_perm _).trans ((List.merge_perm_append _).trans ?_)
    rw [← List.reverse_append]
    exact List.reverse_perm _

/-- On sorted runs both merges are the stable merge. Descending runs, reversed, are sorted by the
opposite order, and their merge, read backwards, is the stable merge. -/
theorem mergeRuns_eq_merge (h : StrictWeakOrder P before) {l r : List α}
    (hl : Sorted before l) (hr : Sorted before r) (hlP : ∀ x ∈ l, P x) (hrP : ∀ x ∈ r, P x) :
    mergeRuns before l r = l.merge r fun a b => !before b a := by
  unfold mergeRuns
  split
  · rename_i hempty
    rcases Bool.or_eq_true_iff.mp hempty with hnil | hnil <;>
      simp [List.isEmpty_iff.mp hnil]
  split
  · exact mergeFront_eq_merge before l r
  · rw [mergeFromBack_eq_mergeFront, mergeFront_eq_merge]
    have hsorted : ∀ zs : List α, Sorted before zs →
        Sorted (fun a b => before b a) zs.reverse := fun zs hzs => by
      rw [Sorted, List.pairwise_reverse]
      exact hzs
    have hback := sortsTo_merge h.flip (by simpa using hrP) (by simpa using hlP)
      (sortsTo_of_sorted (hsorted r hr)) (sortsTo_of_sorted (hsorted l hl))
    have hfront := sortsTo_merge h hlP hrP (sortsTo_of_sorted hl) (sortsTo_of_sorted hr)
    rw [← List.reverse_append] at hback
    exact (SortsTo.reverse_of_flip hback).eq
      (by simpa [or_imp, forall_and] using And.intro hlP hrP)
      (fun x hx => h.irrefl x (by rcases List.mem_append.mp hx with hx | hx
                                  · exact hlP x hx
                                  · exact hrP x hx)) hfront

end Introspect.Sorting
