import Introspect.Sorting.Stable
import Introspect.Proofs.Sorting.Runs

/-!
# The stable quicksort and the stable sort

The pivot is always an entry of the run: the medians of three only pick among positions inside it
(`choosePivot_some`). Splitting at the pivot keeps entries in input order, and with an irreflexive
order the pivot's own place follows the rule for the others (`partitionAt_eq_filter`). A stable
sort splits at any pivot into the stable sorts of the entries before it and of the rest
(`sortSpec_eq_append_filter`), and when nothing sorts before the pivot the entries tied with it
come first, in input order (`sortSpec_eq_filter_ties_append`). The pivot of the enclosing call is
not after any entry of the run (`AncestorBelow`), which is what makes the shortcut to the tied
entries sound. So with a strict weak order the quicksort is the stable sort
(`quicksortWith_eq_sortSpec`), and with any relation it returns a permutation, if anything
(`quicksortWith_perm`).

The stable sort sorts short inputs by insertion and longer ones by runs, with the quicksort for
the runs it leaves unsorted: with a strict weak order it returns the stable sort
(`stableSort_eq_sortSpec`), and with any relation a permutation, if anything (`stableSort_perm`).
-/

set_option autoImplicit false
set_option relaxedAutoImplicit false

namespace Introspect.Sorting

variable {α : Type}

section Pivot

variable (before : α → α → Bool) (arr : Array α)

theorem median3_some {a b c : Nat} (ha : a < arr.size) (hb : b < arr.size) (hc : c < arr.size) :
    ∃ pos, median3 before arr a b c = some pos ∧ pos < arr.size := by
  unfold median3
  rw [Array.getElem?_eq_getElem ha, Array.getElem?_eq_getElem hb, Array.getElem?_eq_getElem hc]
  simp only [Option.bind_eq_bind, Option.bind_some, Option.pure_def]
  split_ifs <;> exact ⟨_, rfl, by assumption⟩

/-- The median of medians picks a position inside the blocks it looks at. Each of the three blocks
is cut in eight, and its medians are taken at eighths 0, 4 and 7. -/
theorem median3Rec_some (n : Nat) :
    ∀ a b c, 1 ≤ n → a + n ≤ arr.size → b + n ≤ arr.size → c + n ≤ arr.size →
      ∃ pos, median3Rec before arr a b c n = some pos ∧ pos < arr.size := by
  induction n using Nat.strongRecOn with
  | _ n ih =>
    intro a b c hn ha hb hc
    rw [median3Rec.eq_1]
    split
    · rename_i hbig
      have hm : 1 ≤ n / 8 := by omega
      have hlt : n / 8 < n := by omega
      obtain ⟨a', ha', ha'lt⟩ := ih (n / 8) hlt a (a + n / 8 * 4) (a + n / 8 * 7) hm (by omega)
        (by omega) (by omega)
      obtain ⟨b', hb', hb'lt⟩ := ih (n / 8) hlt b (b + n / 8 * 4) (b + n / 8 * 7) hm (by omega)
        (by omega) (by omega)
      obtain ⟨c', hc', hc'lt⟩ := ih (n / 8) hlt c (c + n / 8 * 4) (c + n / 8 * 7) hm (by omega)
        (by omega) (by omega)
      simp only [ha', hb', hc', Option.bind_eq_bind, Option.bind_some]
      exact median3_some before arr ha'lt hb'lt hc'lt
    · exact median3_some before arr (by omega) (by omega) (by omega)

/-- A run of at least eight entries has a pivot, at a position inside it. -/
theorem choosePivot_some (hsize : 8 ≤ arr.size) :
    ∃ pos, choosePivot before arr = some pos ∧ pos < arr.size := by
  unfold choosePivot
  dsimp only
  split
  · exact median3_some before arr (by omega) (by omega) (by omega)
  · exact median3Rec_some before arr _ _ _ _ (by omega) (by omega) (by omega) (by omega)

end Pivot

/-- Splitting at the pivot is filtering, once the pivot goes to the side the others like it go. -/
theorem partitionAt_eq_filter {v : List α} {pos : Nat} {pivot : α} (hpos : v[pos]? = some pivot)
    (pivotLeft : Bool) (goesLeft : α → Bool) (hpivot : goesLeft pivot = pivotLeft) :
    partitionAt v pos pivotLeft goesLeft = (v.filter goesLeft, v.filter fun x => !goesLeft x) := by
  have hside : ∀ e ∈ v.zipIdx,
      (if e.2 = pos then pivotLeft else goesLeft e.1) = goesLeft e.1 := by
    rintro ⟨x, i⟩ he
    obtain ⟨-, -, hx⟩ := List.mem_zipIdx he
    have hxi : v[i]? = some x := by simp [hx]
    by_cases hipos : i = pos
    · rw [hipos, hpos, Option.some.injEq] at hxi
      simp [hipos, ← hxi, hpivot]
    · simp [hipos]
  have hmap : ∀ g : α → Bool, (v.zipIdx.filter fun e => g e.1).map (fun e => e.1) = v.filter g := by
    intro g
    calc (v.zipIdx.filter fun e => g e.1).map (fun e => e.1)
        = (v.zipIdx.map Prod.fst).filter g := by rw [List.filter_map]; rfl
      _ = v.filter g := by rw [List.zipIdx_map_fst]
  have hside' : ∀ e ∈ v.zipIdx,
      (!(if e.2 = pos then pivotLeft else goesLeft e.1)) = !goesLeft e.1 := fun e he => by
    rw [hside e he]
  unfold partitionAt
  dsimp only
  rw [List.filter_congr hside, List.filter_congr hside']
  exact Prod.ext (hmap goesLeft) (hmap fun x => !goesLeft x)

/-- With any relation, the two sides of a split hold the entries of the run. -/
theorem partitionAt_perm (v : List α) (pos : Nat) (pivotLeft : Bool) (goesLeft : α → Bool) :
    ((partitionAt v pos pivotLeft goesLeft).1 ++
      (partitionAt v pos pivotLeft goesLeft).2).Perm v := by
  unfold partitionAt
  dsimp only
  rw [← List.map_append]
  have hperm := (List.filter_append_perm
    (fun e : α × Nat => if e.2 = pos then pivotLeft else goesLeft e.1) (v.zipIdx)).map Prod.fst
  rwa [List.zipIdx_map_fst] at hperm

section Split

variable {P : α → Prop} {before : α → α → Bool} (h : StrictWeakOrder P before)
include h

/-- A stable sort splits at any pivot: the stable sort of the entries that sort before it, then
that of the rest. -/
theorem sortSpec_eq_append_filter {v : List α} {pivot : α} (hv : ∀ x ∈ v, P x)
    (hpivot : P pivot) :
    sortSpec before v = sortSpec before (v.filter (before · pivot)) ++
      sortSpec before (v.filter fun x => !before x pivot) :=
  sortSpec_filter_append h (before · pivot) hv fun a ha b hb hab hba =>
    h.before_of_before_of_not_before (hv a ha) hpivot (hv b hb) hab hba

/-- When no entry sorts before the pivot, the stable sort is the entries tied with the pivot, in
input order, then the stable sort of those after it. -/
theorem sortSpec_eq_filter_ties_append {v : List α} {pivot : α} (hv : ∀ x ∈ v, P x)
    (hpivot : P pivot) (hall : ∀ x ∈ v, before x pivot = false) :
    sortSpec before v =
      v.filter (fun x => !before pivot x) ++ sortSpec before (v.filter (before pivot ·)) := by
  have hr : ∀ x ∈ v.filter (before pivot ·), P x := fun x hx => hv x (List.mem_filter.mp hx).1
  have hties : Sorted before (v.filter fun x => !before pivot x) := by
    refine List.pairwise_of_forall_mem_list fun a ha b hb => ?_
    obtain ⟨hav, hpa⟩ := List.mem_filter.mp ha
    obtain ⟨hbv, hpb⟩ := List.mem_filter.mp hb
    have hab : tie before a b = true :=
      h.tie_trans (hv a hav) hpivot (hv b hbv) (tie_eq_true.mpr ⟨by simpa using hpa, hall a hav⟩)
        (tie_eq_true.mpr ⟨hall b hbv, by simpa using hpb⟩)
    exact (tie_eq_true.mp hab).1
  have hs := sortsTo_filter_append h (fun x => !before pivot x) hv
    (fun a ha b hb hpa hpb => h.before_of_not_before_of_before (hv a ha) hpivot (hv b hb)
      (by simpa using hpa) (by simpa using hpb))
    (sortsTo_of_sorted hties) (by simpa using sortsTo_sortSpec h hr)
  exact (hs.eq_sortSpec h hv).symm

end Split

/-- The pivot of the enclosing call, if there is one, satisfies `P` and is not after any entry of
the run. -/
def AncestorBelow (P : α → Prop) (before : α → α → Bool) : Option α → List α → Prop
  | some a, v => P a ∧ ∀ x ∈ v, before x a = false
  | none, _ => True

section Step

/-! One call on a long run, once its pivot is found, given that the calls on shorter runs sort. -/

variable {P : α → Prop} {before : α → α → Bool} (h : StrictWeakOrder P before)
  (p : Profile) (scratch fuel limit : Nat) {v : List α} {pos : Nat} {pivot : α}
  (hv : ∀ x ∈ v, P x) (hpivot : v[pos]? = some pivot)
  (hrec : ∀ w anc, w.length < v.length → (∀ x ∈ w, P x) → AncestorBelow P before anc w →
    quicksortWith p before scratch fuel w (limit - 1) anc = some (sortSpec before w))
include h hv hpivot hrec

/-- When nothing sorts before the pivot, the entries tied with it come first, as they are. The pivot
is not after itself, so the run of the greater entries is shorter. -/
theorem quicksort_ties_eq_sortSpec (hall : ∀ x ∈ v, before x pivot = false) :
    ((quicksortWith p before scratch fuel (partitionAt v pos true fun x => !before pivot x).2
        (limit - 1) none).bind fun sg =>
      pure ((partitionAt v pos true fun x => !before pivot x).1 ++ sg)) =
      some (sortSpec before v) := by
  have hpP : P pivot := hv pivot (List.mem_of_getElem? hpivot)
  have hirr := h.irrefl pivot hpP
  have hgreater : (v.filter (before pivot ·)).length < v.length :=
    List.length_filter_lt_length_iff_exists.mpr ⟨pivot, List.mem_of_getElem? hpivot, by simp [hirr]⟩
  rw [partitionAt_eq_filter hpivot true _ (by simp [hirr])]
  simp only [Bool.not_not]
  rw [hrec _ none hgreater (fun x hx => hv x (List.mem_filter.mp hx).1) trivial, Option.bind_some,
    sortSpec_eq_filter_ties_append h hv hpP hall]
  rfl

/-- Otherwise the entries that sort before the pivot are split off, unless there are none. The rest
has this pivot below it; the entries before it keep the enclosing one. -/
theorem quicksort_split_eq_sortSpec (anc : Option α) (hanc : AncestorBelow P before anc v) :
    (if (v.filter (before · pivot)).isEmpty = true then
      (quicksortWith p before scratch fuel
          (partitionAt (v.filter fun x => !before x pivot) pos true fun x => !before pivot x).2
          (limit - 1) none).bind fun sg =>
        pure ((partitionAt (v.filter fun x => !before x pivot) pos true
          fun x => !before pivot x).1 ++ sg)
    else
      (quicksortWith p before scratch fuel (v.filter fun x => !before x pivot) (limit - 1)
          (some pivot)).bind fun sr =>
        (quicksortWith p before scratch fuel (v.filter (before · pivot)) (limit - 1) anc).bind
          fun sl => pure (sl ++ sr)) = some (sortSpec before v) := by
  have hpP : P pivot := hv pivot (List.mem_of_getElem? hpivot)
  have hsub : ∀ q : α → Bool, ∀ x ∈ v.filter q, P x := fun q x hx => hv x (List.mem_filter.mp hx).1
  split
  · rename_i hempty
    have hall : ∀ x ∈ v, before x pivot = false := by
      simpa [List.filter_eq_nil_iff] using hempty
    rw [List.filter_eq_self.mpr fun x hx => by simp [hall x hx]]
    exact quicksort_ties_eq_sortSpec h p scratch fuel limit hv hpivot hrec hall
  · rename_i hnonempty
    obtain ⟨y, hy, hyp⟩ : ∃ y ∈ v, before y pivot = true := by
      simpa [List.filter_eq_nil_iff] using hnonempty
    have hrest : (v.filter fun x => !before x pivot).length < v.length :=
      List.length_filter_lt_length_iff_exists.mpr ⟨y, hy, by simp [hyp]⟩
    have hless : (v.filter (before · pivot)).length < v.length :=
      List.length_filter_lt_length_iff_exists.mpr
        ⟨pivot, List.mem_of_getElem? hpivot, by simp [h.irrefl pivot hpP]⟩
    have hancRest : AncestorBelow P before (some pivot) (v.filter fun x => !before x pivot) :=
      ⟨hpP, fun x hx => by simpa using (List.mem_filter.mp hx).2⟩
    have hancLess : AncestorBelow P before anc (v.filter (before · pivot)) := by
      cases anc with
      | none => trivial
      | some a => exact ⟨hanc.1, fun x hx => hanc.2 x (List.mem_filter.mp hx).1⟩
    rw [hrec _ _ hrest (hsub _) hancRest, Option.bind_some, hrec _ _ hless (hsub _) hancLess,
      Option.bind_some, sortSpec_eq_append_filter h hv hpP]
    rfl

end Step

/-- With a strict weak order, the quicksort with enough calls left is the stable sort. The
induction is on the calls left; the enclosing pivot is not after any entry of the run. -/
theorem quicksortWith_eq_sortSpec {P : α → Prop} {before : α → α → Bool}
    (h : StrictWeakOrder P before) (p : Profile) (scratch : Nat) :
    ∀ (fuel : Nat) (v : List α) (limit : Nat) (ancestor : Option α), v.length < fuel →
      (∀ x ∈ v, P x) → AncestorBelow P before ancestor v →
      quicksortWith p before scratch fuel v limit ancestor = some (sortSpec before v) := by
  intro fuel
  induction fuel with
  | zero => intro v _ _ hlen; exact absurd hlen (Nat.not_lt_zero _)
  | succ fuel ih =>
    intro v limit ancestor hlen hv hanc
    rw [quicksortWith.eq_2]
    by_cases hsmall : v.length ≤ smallSortLimit
    · rw [if_pos hsmall]
      exact smallSort_eq_sortSpec h p hv
    rw [if_neg hsmall]
    by_cases hlimit : limit = 0
    · rw [if_pos hlimit]
      exact runSort_eq_sortSpec h p scratch true (fun h => absurd h (by simp)) hv
    rw [if_neg hlimit]
    obtain ⟨pos, hpos, hposlt⟩ := choosePivot_some before v.toArray
      (by simp only [smallSortLimit] at hsmall; simp; omega)
    obtain ⟨pivot, hpivot⟩ : ∃ pivot, v[pos]? = some pivot :=
      ⟨v[pos], List.getElem?_eq_getElem (by simpa using hposlt)⟩
    have hpP : P pivot := hv pivot (List.mem_of_getElem? hpivot)
    have hirr := h.irrefl pivot hpP
    have hrec : ∀ w anc, w.length < v.length → (∀ x ∈ w, P x) → AncestorBelow P before anc w →
        quicksortWith p before scratch fuel w (limit - 1) anc = some (sortSpec before w) :=
      fun w anc hw => ih w (limit - 1) anc (by omega)
    simp only [hpos, hpivot, Option.bind_eq_bind, Option.bind_some]
    split
    · rename_i a
      by_cases hap : before a pivot = true
      · simp only [hap, Bool.not_true, Bool.false_eq_true, if_false]
        rw [partitionAt_eq_filter hpivot false (fun x => before x pivot) hirr]
        exact quicksort_split_eq_sortSpec h p scratch fuel limit hv hpivot hrec (some a) hanc
      · have hap' : before a pivot = false := by simpa using hap
        simp only [hap', Bool.not_false, if_true, List.isEmpty_nil]
        exact quicksort_ties_eq_sortSpec h p scratch fuel limit hv hpivot hrec
          fun x hx => h.not_before_trans hpP hanc.1 (hv x hx) hap' (hanc.2 x hx)
    · simp only [Bool.false_eq_true, if_false]
      rw [partitionAt_eq_filter hpivot false (fun x => before x pivot) hirr]
      exact quicksort_split_eq_sortSpec h p scratch fuel limit hv hpivot hrec none hanc

section Keeps

/-! With any relation the quicksort keeps the entries of the run. -/

variable {p : Profile} {before : α → α → Bool} {scratch fuel limit : Nat}

/-- The work after the first split of a long run keeps its entries, whatever that split is, as
long as it keeps them too. -/
theorem quicksort_tail_perm {v : List α} {pos : Nat} {pivot : α} {ancestor : Option α}
    (parts : List α × List α) (hparts : (parts.1 ++ parts.2).Perm v)
    (hrec : ∀ w anc ys, quicksortWith p before scratch fuel w (limit - 1) anc = some ys →
      ys.Perm w) {ys : List α}
    (hys : (if parts.1.isEmpty = true then
      (quicksortWith p before scratch fuel (partitionAt parts.2 pos true fun x => !before pivot x).2
          (limit - 1) none).bind fun sg =>
        pure ((partitionAt parts.2 pos true fun x => !before pivot x).1 ++ sg)
    else
      (quicksortWith p before scratch fuel parts.2 (limit - 1) (some pivot)).bind fun sr =>
        (quicksortWith p before scratch fuel parts.1 (limit - 1) ancestor).bind
          fun sl => pure (sl ++ sr)) = some ys) :
    ys.Perm v := by
  split at hys
  · rename_i hempty
    simp only [Option.bind_eq_some_iff, Option.pure_def, Option.some.injEq] at hys
    obtain ⟨sg, hsg, rfl⟩ := hys
    rw [List.isEmpty_iff.mp hempty, List.nil_append] at hparts
    exact ((hrec _ _ _ hsg).append_left _).trans ((partitionAt_perm _ _ _ _).trans hparts)
  · simp only [Option.bind_eq_some_iff, Option.pure_def, Option.some.injEq] at hys
    obtain ⟨sr, hsr, sl, hsl, rfl⟩ := hys
    exact ((hrec _ _ _ hsl).append (hrec _ _ _ hsr)).trans hparts

/-- With any relation, whatever the quicksort returns is a permutation of the run. -/
theorem quicksortWith_perm :
    ∀ (fuel : Nat) (v : List α) (limit : Nat) (ancestor : Option α) {ys : List α},
      quicksortWith p before scratch fuel v limit ancestor = some ys → ys.Perm v := by
  intro fuel
  induction fuel with
  | zero => intro v _ _ ys hys; simp [quicksortWith] at hys
  | succ fuel ih =>
    intro v limit ancestor ys hys
    rw [quicksortWith.eq_2] at hys
    split_ifs at hys with hsmall hlimit
    · exact smallSort_perm before p hys
    · exact runSort_perm p before scratch true (fun s ys hs => ih _ _ _ hs) hys
    · simp only [Option.bind_eq_bind, Option.bind_eq_some_iff] at hys
      obtain ⟨pos, -, pivot, -, hys⟩ := hys
      have hfirst : ∀ b : Bool,
          ((if b = true then ([], v) else partitionAt v pos false (before · pivot)).1 ++
            (if b = true then ([], v) else partitionAt v pos false (before · pivot)).2).Perm v := by
        intro b
        cases b
        · rw [if_neg Bool.false_ne_true]
          exact partitionAt_perm _ _ _ _
        · rw [if_pos rfl]
          exact List.Perm.refl v
      exact quicksort_tail_perm _ (hfirst _) (fun w anc ys hw => ih w (limit - 1) anc hw) hys

end Keeps

section Stable

variable {P : α → Prop} {before : α → α → Bool} (p : Profile)

theorem stableQuicksort_eq_sortSpec (h : StrictWeakOrder P before) (scratch : Nat) {v : List α}
    (hv : ∀ x ∈ v, P x) : stableQuicksort p before scratch v = some (sortSpec before v) :=
  quicksortWith_eq_sortSpec h p scratch _ v _ none (Nat.lt_succ_self _) hv trivial

/-- With a strict weak order the stable sort returns the stable sort: it never fails. -/
theorem stableSort_eq_sortSpec (h : StrictWeakOrder P before) {v : List α} (hv : ∀ x ∈ v, P x) :
    stableSort p before v = some (sortSpec before v) := by
  unfold stableSort
  dsimp only
  split
  · rw [insertionSort_eq_sortSpec h hv]
  · exact runSort_eq_sortSpec h p _ _ (fun _ s hs => stableQuicksort_eq_sortSpec p h _ hs) hv

/-- With any relation, whatever the stable sort returns is a permutation of its input. -/
theorem stableSort_perm {v ys : List α} (hys : stableSort p before v = some ys) : ys.Perm v := by
  unfold stableSort at hys
  dsimp only at hys
  split at hys
  · rw [← Option.some.inj hys]
    exact insertionSort_perm before v
  · exact runSort_perm p before _ _ (fun s _ hs => quicksortWith_perm _ s _ none hs) hys

end Stable

end Introspect.Sorting
