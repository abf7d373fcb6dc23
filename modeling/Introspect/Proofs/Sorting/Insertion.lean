import Introspect.Proofs.Sorting.Spec

/-!
# Insertion from the right sorts stably

Placing `x` into a sorted list, from its end, passes exactly the entries that `x` sorts before
(`placeFromRight_split`): what it passes sorts after `x`, and the entry where it stops is not
after `x`, nor is anything before that entry. So `x` lands after every entry that ties with it,
which is where a stable sort puts an entry that comes last in the input
(`sortsTo_placeFromRight`); placing the entries one by one sorts them (`sortsTo_placeAll`), and
insertion sort is the stable sort (`insertionSort_eq_sortSpec`).
-/

set_option autoImplicit false
set_option relaxedAutoImplicit false

namespace Introspect.Sorting

variable {α : Type} {P : α → Prop} {before : α → α → Bool}

/-- Placing `x` into a list held last entry first passes a stretch of entries that `x` sorts
before, and stops at an entry that it does not. -/
theorem placeFromRight_split (before : α → α → Bool) (x : α) (R : List α) :
    ∃ T D, R = T ++ D ∧ placeFromRight before x R = T ++ x :: D ∧
      (∀ t ∈ T, before x t = true) ∧ ∀ d ∈ D.head?, before x d = false := by
  induction R with
  | nil => exact ⟨[], [], rfl, rfl, by simp, by simp⟩
  | cons y ys ih =>
    by_cases hxy : before x y = true
    · obtain ⟨T, D, rfl, hplace, hT, hD⟩ := ih
      refine ⟨y :: T, D, rfl, ?_, ?_, hD⟩
      · simp [placeFromRight, hxy, hplace]
      · simpa [hxy] using hT
    · refine ⟨[], y :: ys, rfl, ?_, by simp, by simpa using hxy⟩
      simp [placeFromRight, hxy]

variable (h : StrictWeakOrder P before)
include h

/-- Inserting `x` from the right into a stable sort of `xs` stably sorts `xs ++ [x]`. Every entry up
to where `x` stops is not after `x`; when `x` ties with the entry it stops at, nothing it passed
ties with it. -/
theorem sortsTo_placeFromRight {xs zs : List α} {x : α} (hxs : ∀ y ∈ xs, P y) (hx : P x)
    (hs : SortsTo P before xs zs) :
    SortsTo P before (xs ++ [x]) (placeFromRight before x zs.reverse).reverse := by
  obtain ⟨T, D, hsplit, hplace, hT, hD⟩ := placeFromRight_split before x zs.reverse
  have hzs : zs = D.reverse ++ T.reverse := by
    rw [← List.reverse_append, ← hsplit, List.reverse_reverse]
  have hzP : ∀ y ∈ zs, P y := fun y hy => hxs y (hs.perm.subset hy)
  have hsorted := hs.sorted
  rw [hzs] at hsorted hzP
  have hB : ∀ b ∈ T.reverse, before x b = true := fun b hb => hT b (List.mem_reverse.mp hb)
  have hA : ∀ a ∈ D.reverse, before x a = false := by
    intro a ha
    cases D with
    | nil => simp at ha
    | cons d D =>
      have hd : before x d = false := hD d rfl
      rw [List.reverse_cons, List.mem_append, List.mem_singleton] at ha
      rcases ha with ha | rfl
      · rw [List.reverse_cons, List.append_assoc, Sorted, List.pairwise_append] at hsorted
        have hda : before d a = false := hsorted.2.2 a ha d (by simp)
        exact h.not_before_trans (hzP a (by simp [ha])) (hzP d (by simp)) hx hda hd
      · exact hd
  rw [hplace, List.reverse_append, List.reverse_cons, List.append_assoc, List.singleton_append]
  refine ⟨?_, ?_, fun c hc => ?_⟩
  · have hp : (D.reverse ++ x :: T.reverse).Perm (D.reverse ++ T.reverse ++ [x]) := by
      rw [List.append_assoc]
      exact List.Perm.append_left _ (List.perm_append_singleton x _).symm
    rw [← hzs] at hp
    exact hp.trans (hs.perm.append_right _)
  · rw [Sorted, List.pairwise_append] at hsorted ⊢
    refine ⟨hsorted.1, List.pairwise_cons.mpr ⟨fun b hb => ?_, hsorted.2.1⟩, fun a ha b hb => ?_⟩
    · exact h.asymm hx (hzP b (by simp [hb])) (hB b hb)
    · rcases List.mem_cons.mp hb with rfl | hb
      · exact hA a ha
      · exact hsorted.2.2 a ha b hb
  · rw [List.filter_append, List.filter_append, ← hs.stable c hc, hzs, List.filter_append,
      List.filter_cons, List.append_assoc]
    cases hcx : tie before c x
    · simp [hcx]
    · have hnone : T.reverse.filter (tie before c) = [] := by
        refine List.filter_eq_nil_iff.mpr fun b hb hcb => ?_
        have hcx' := tie_eq_true.mp hcx
        have hcb' := tie_eq_true.mp hcb
        rcases h.cotrans x c b hx hc (hzP b (by simp [hb])) (hB b hb) with h1 | h1 <;> simp_all
      simp [hnone, hcx]

/-- Placing the entries of `xs` one by one into a stable sort of `xs₀` stably sorts `xs₀ ++ xs`. -/
theorem sortsTo_placeAll {xs₀ zs : List α} (xs : List α) (hxs₀ : ∀ y ∈ xs₀, P y)
    (hxs : ∀ y ∈ xs, P y) (hs : SortsTo P before xs₀ zs) :
    SortsTo P before (xs₀ ++ xs) (placeAll before zs.reverse xs).reverse := by
  induction xs generalizing xs₀ zs with
  | nil => simpa [placeAll] using hs
  | cons x xs ih =>
    have hx := hxs x List.mem_cons_self
    have hstep := sortsTo_placeFromRight h hxs₀ hx hs
    have hrest := ih (by simpa [or_imp, forall_and] using And.intro hxs₀ hx)
      (fun y hy => hxs y (List.mem_cons_of_mem _ hy)) hstep
    simpa [placeAll] using hrest

/-- Insertion sort from the right is the stable sort. -/
theorem insertionSort_eq_sortSpec {xs : List α} (hxs : ∀ y ∈ xs, P y) :
    insertionSort before xs = sortSpec before xs := by
  have hs : SortsTo P before ([] ++ xs) (placeAll before ([] : List α).reverse xs).reverse :=
    sortsTo_placeAll h xs (by simp) hxs (sortsTo_of_sorted List.Pairwise.nil)
  exact (by simpa [insertionSort] using hs :
    SortsTo P before xs (insertionSort before xs)).eq_sortSpec h hxs

end Introspect.Sorting
