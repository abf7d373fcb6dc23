import Introspect.Proofs.Sorting.Runs
import Introspect.Sorting.Stable

/-!
# The sort sees entries only through the order

Every step of the stable sort reads entries only by comparing them with `before`; it moves them,
but never looks inside. So sorting entries mapped by `f`, by an order on the images, is sorting
the entries themselves by the order that compares their images, and then mapping the result by
`f`: the same comparisons are made, they give the same answers, and the same moves follow,
contradictions found included (`stableSort_map`).

The statement holds whatever `before` is, strict weak order or not, so it carries over what the
sort does where its result depends on the method: two sorts of entries that differ only in what
the order does not read give results that differ only there.

Each part of the sort has its lemma, stated for an order `before'` on the entries that answers as
`before` does on their images: insertion (`insertionSort_map`), the merges (`mergeRuns_map`,
`mergeTwoEnded_map`), the small-input sort (`smallSort_map`), the sort by runs (`runSort_map`),
whose unsorted runs go to a sort with the same property, and the stable quicksort
(`quicksortWith_map`), by induction on its calls.
-/

set_option autoImplicit false
set_option relaxedAutoImplicit false

namespace Introspect.Sorting

variable {α β : Type} (f : α → β) {before : β → β → Bool} {before' : α → α → Bool}
  (hf : ∀ a b, before (f a) (f b) = before' a b)
include hf

/-! ### Insertion and merges -/

theorem placeFromRight_map (x : α) (ys : List α) :
    placeFromRight before (f x) (ys.map f) = (placeFromRight before' x ys).map f := by
  induction ys with
  | nil => rfl
  | cons y ys ih =>
    simp only [List.map_cons, placeFromRight, hf]
    split <;> simp [ih]

theorem placeAll_map (placed xs : List α) :
    placeAll before (placed.map f) (xs.map f) = (placeAll before' placed xs).map f := by
  induction xs generalizing placed with
  | nil => rfl
  | cons x xs ih =>
    simp only [placeAll, List.map_cons, List.foldl_cons] at ih ⊢
    rw [placeFromRight_map f hf, ih]

theorem insertionSort_map (xs : List α) :
    insertionSort before (xs.map f) = (insertionSort before' xs).map f := by
  have h := placeAll_map f hf [] xs
  rw [List.map_nil] at h
  rw [insertionSort, insertionSort, h, List.map_reverse]

theorem mergeFront_map (xs ys : List α) :
    mergeFront before (xs.map f) (ys.map f) = (mergeFront before' xs ys).map f := by
  fun_induction mergeFront before' xs ys with
  | case1 ys => simp [mergeFront]
  | case2 x xs => simp [mergeFront]
  | case3 x xs y ys h ih => simp [mergeFront, hf, h, ← ih]
  | case4 x xs y ys h ih => simp [mergeFront, hf, h, ← ih]

theorem mergeFromBack_map (xs ys : List α) :
    mergeFromBack before (xs.map f) (ys.map f) = (mergeFromBack before' xs ys).map f := by
  fun_induction mergeFromBack before' xs ys with
  | case1 ys => simp [mergeFromBack]
  | case2 x xs => simp [mergeFromBack]
  | case3 x xs y ys h ih => simp [mergeFromBack, hf, h, ← ih]
  | case4 x xs y ys h ih => simp [mergeFromBack, hf, h, ← ih]

theorem mergeRuns_map (left right : List α) :
    mergeRuns before (left.map f) (right.map f) = (mergeRuns before' left right).map f := by
  unfold mergeRuns
  simp only [List.isEmpty_map, List.length_map, ← List.map_reverse]
  split_ifs
  · exact (List.map_append).symm
  · exact mergeFront_map f hf left right
  · rw [mergeFromBack_map f hf, List.map_reverse]

/-! ### The merge from both ends -/

omit hf in
/-- The same positions, with the entries written so far mapped by `f`. -/
def TwoEnded.map (s : TwoEnded α) : TwoEnded β :=
  { s with front := s.front.map f, back := s.back.map f }

theorem TwoEnded.step_map (src : Array α) (s : TwoEnded α) :
    (s.map f).step before (src.map f) = (s.step before' src).map (TwoEnded.map f) := by
  simp only [TwoEnded.step, TwoEnded.map, Array.getElem?_map]
  split
  · rfl
  · cases src[s.left]? <;> cases src[s.right]? <;> cases src[s.leftEnd - 1]? <;>
      cases src[s.rightEnd - 1]? <;> simp [hf, TwoEnded.map, apply_ite f]

theorem foldlM_step_map (src : Array α) (n : Nat) (s : TwoEnded α) :
    (List.range n).foldlM (fun (s : TwoEnded β) _ => s.step before (src.map f)) (s.map f) =
      ((List.range n).foldlM (fun (s : TwoEnded α) _ => s.step before' src) s).map
        (TwoEnded.map f) := by
  induction n with
  | zero => rfl
  | succ n ih =>
    rw [List.range_succ, List.foldlM_append, List.foldlM_append, ih]
    cases (List.range n).foldlM (fun (s : TwoEnded α) _ => s.step before' src) s with
    | none => rfl
    | some t => simpa using TwoEnded.step_map f hf src t

theorem mergeTwoEnded_map (src : Array α) :
    mergeTwoEnded before (src.map f) = (mergeTwoEnded before' src).map (List.map f) := by
  have hinit : (⟨0, src.size / 2, src.size / 2, src.size, [], []⟩ : TwoEnded β) =
      TwoEnded.map f ⟨0, src.size / 2, src.size / 2, src.size, [], []⟩ := rfl
  simp only [mergeTwoEnded, Array.size_map]
  rw [hinit, foldlM_step_map f hf]
  cases (List.range (src.size / 2)).foldlM (fun (s : TwoEnded α) _ => s.step before' src)
    (⟨0, src.size / 2, src.size / 2, src.size, [], []⟩ : TwoEnded α) with
  | none => rfl
  | some t =>
    simp only [Option.map_some, TwoEnded.map]
    split
    · simp [Array.getElem?_map, Option.map_bind, Option.bind_map,
        apply_ite (Option.map (List.map f))]
    · simp [apply_ite (Option.map (List.map f))]

/-! ### The small-input sort -/

theorem sort4_map (v0 v1 v2 v3 : α) :
    sort4 before (f v0) (f v1) (f v2) (f v3) = (sort4 before' v0 v1 v2 v3).map f := by
  simp only [sort4, ← apply_ite f, hf, List.map_cons, List.map_nil]

theorem presort4_map (l : List α) :
    presort4 before (l.map f) = (presort4 before' l).map (List.map f) := by
  match l with
  | [v0, v1, v2, v3] => simp [presort4, sort4_map f hf]
  | [] | [_] | [_, _] | [_, _, _] | _ :: _ :: _ :: _ :: _ :: _ => rfl

theorem sort8_map (l : List α) :
    sort8 before (l.map f) = (sort8 before' l).map (List.map f) := by
  match l with
  | [v0, v1, v2, v3, v4, v5, v6, v7] =>
    simp only [List.map_cons, List.map_nil, sort8]
    rw [sort4_map f hf, sort4_map f hf, ← List.map_append, ← List.map_toArray,
      mergeTwoEnded_map f hf]
  | [] | [_] | [_, _] | [_, _, _] | [_, _, _, _] | [_, _, _, _, _] | [_, _, _, _, _, _]
  | [_, _, _, _, _, _, _] | _ :: _ :: _ :: _ :: _ :: _ :: _ :: _ :: _ :: _ => rfl

theorem sortHalf_map (count : Nat) (half : List α) :
    sortHalf before count (half.map f) = (sortHalf before' count half).map (List.map f) := by
  have hrest : ∀ start : List α,
      (placeAll before (start.map f).reverse ((half.drop count).map f)).reverse =
        (placeAll before' start.reverse (half.drop count)).reverse.map f := by
    intro start
    rw [← List.map_reverse, placeAll_map f hf, List.map_reverse]
  simp only [sortHalf, ← List.map_take, ← List.map_drop]
  split_ifs
  · rw [sort8_map f hf]
    cases sort8 before' (half.take count) with
    | none => rfl
    | some start => exact congrArg some (hrest start)
  · rw [presort4_map f hf]
    cases presort4 before' (half.take count) with
    | none => rfl
    | some start => exact congrArg some (hrest start)
  · exact congrArg some (hrest (half.take count))

theorem smallSort_map (p : Profile) (v : List α) :
    smallSort p before (v.map f) = (smallSort p before' v).map (List.map f) := by
  unfold smallSort
  simp only [List.length_map]
  split
  · rfl
  · rw [← List.map_take, ← List.map_drop, sortHalf_map f hf, sortHalf_map f hf]
    cases sortHalf before' (presortedCount p v.length) (v.take (v.length / 2)) with
    | none => rfl
    | some a =>
      cases sortHalf before' (presortedCount p v.length) (v.drop (v.length / 2)) with
      | none => rfl
      | some b =>
        show mergeTwoEnded before (a.map f ++ b.map f).toArray = _
        rw [← List.map_append, ← List.map_toArray, mergeTwoEnded_map f hf]
        rfl

/-! ### Sorting by runs -/

omit hf in
/-- The same run, its entries mapped by `f`. -/
def Run.map (r : Run α) : Run β := ⟨r.items.map f, r.sorted⟩

theorem descendingCount_map (prev : α) (xs : List α) :
    descendingCount before (f prev) (xs.map f) = descendingCount before' prev xs := by
  induction xs generalizing prev with
  | nil => rfl
  | cons x xs ih => simp [descendingCount, hf, ih]

theorem nondescendingCount_map (prev : α) (xs : List α) :
    nondescendingCount before (f prev) (xs.map f) = nondescendingCount before' prev xs := by
  induction xs generalizing prev with
  | nil => rfl
  | cons x xs ih => simp [nondescendingCount, hf, ih]

theorem existingRun_map (v : List α) : existingRun before (v.map f) = existingRun before' v := by
  match v with
  | v0 :: v1 :: rest =>
    simp [existingRun, hf, descendingCount_map f hf, nondescendingCount_map f hf]
  | [] | [_] => rfl

theorem createRun_map (p : Profile) (eager : Bool) (minGood : Nat) (rest : List α) :
    createRun p before eager minGood (rest.map f) =
      (createRun p before' eager minGood rest).map fun e => (e.1.map f, e.2.map f) := by
  unfold createRun
  simp only [List.length_map, existingRun_map f hf]
  obtain ⟨len, descending⟩ := existingRun before' rest
  dsimp only
  by_cases hgood : minGood ≤ rest.length ∧ minGood ≤ len
  · rw [if_pos hgood, if_pos hgood]
    cases descending <;> simp [Run.map, List.map_reverse]
  · rw [if_neg hgood, if_neg hgood]
    cases eager
    · simp [Run.map]
    · rw [if_pos rfl, if_pos rfl, ← List.map_take, smallSort_map f hf]
      cases smallSort p before' (rest.take (min smallSortLimit rest.length)) with
      | none => rfl
      | some sorted => simp [Run.map]

section SortRun

variable {sortRun : List β → Option (List β)} {sortRun' : List α → Option (List α)}
  (hsort : ∀ xs, sortRun (xs.map f) = (sortRun' xs).map (List.map f))
include hsort

theorem mergeLogical_map (scratch : Nat) (left right : Run α) :
    mergeLogical before scratch sortRun (left.map f) (right.map f) =
      (mergeLogical before' scratch sortRun' left right).map (Run.map f) := by
  have hside : ∀ r : Run α,
      (if (r.map f).sorted then some (r.map f).items else sortRun (r.map f).items) =
        (if r.sorted then some r.items else sortRun' r.items).map (List.map f) := by
    intro r
    obtain ⟨items, sorted⟩ := r
    cases sorted
    · exact hsort items
    · rfl
  have hcond : (scratch < (left.map f).items.length + (right.map f).items.length ∨
      (left.map f).sorted = true ∨ (right.map f).sorted = true) ↔
      (scratch < left.items.length + right.items.length ∨ left.sorted = true ∨
        right.sorted = true) := by
    simp [Run.map]
  rw [mergeLogical_eq, mergeLogical_eq]
  by_cases hc : scratch < left.items.length + right.items.length ∨ left.sorted = true ∨
      right.sorted = true
  · rw [if_pos hc, if_pos (hcond.mpr hc), hside left, hside right]
    cases (if left.sorted then some left.items else sortRun' left.items) with
    | none => rfl
    | some l =>
      cases (if right.sorted then some right.items else sortRun' right.items) with
      | none => rfl
      | some r =>
        show some ({ items := mergeRuns before (l.map f) (r.map f), sorted := true } : Run β) = _
        rw [mergeRuns_map f hf]
        rfl
  · rw [if_neg hc, if_neg (mt hcond.mp hc)]
    simp [Run.map]

omit hf hsort in
/-- Runs on the stack with their boundary depths, entries mapped by `f`. -/
abbrev mapStack (stack : List (Run α × Nat)) : List (Run β × Nat) :=
  stack.map fun e => (e.1.map f, e.2)

theorem collapse_map (scratch depth : Nat) (prev : Run α) (stack : List (Run α × Nat)) :
    collapse before scratch sortRun depth (prev.map f) (mapStack f stack) =
      (collapse before' scratch sortRun' depth prev stack).map
        fun e => (e.1.map f, mapStack f e.2) := by
  fun_induction collapse before' scratch sortRun' depth prev stack with
  | case1 prev left d x xs hdepth ih =>
    simp only [mapStack, List.map_cons] at ih ⊢
    rw [collapse, if_pos hdepth, mergeLogical_map f hf hsort]
    cases mergeLogical before' scratch sortRun' left prev with
    | none => rfl
    | some merged => exact ih merged
  | case2 prev left d x xs hdepth =>
    simp only [mapStack, List.map_cons]
    rw [collapse, if_neg hdepth]
    rfl
  | case3 prev stack hstack =>
    rcases stack with _ | ⟨⟨left, d⟩, _ | ⟨e, rest⟩⟩
    · simp [collapse]
    · simp [collapse]
    · exact (hstack left d e rest rfl).elim

omit hf in
/-- A run that is used up is sorted alike, whether it is sorted already or sorted now. -/
theorem finishRun_map (r : Run α) :
    (if (r.map f).sorted then some (r.map f).items else sortRun (r.map f).items) =
      (if r.sorted then some r.items else sortRun' r.items).map (List.map f) := by
  obtain ⟨items, sorted⟩ := r
  cases sorted
  · exact hsort items
  · rfl

/-- The run loop makes the same moves on mapped entries: the boundary depth reads lengths only,
which mapping keeps. -/
theorem runLoop_map (p : Profile) (scratch : Nat) (eager : Bool) (minGood scale fuel scan : Nat)
    (rest : List α) (prev : Run α) (stack : List (Run α × Nat)) :
    runLoop p before scratch eager minGood scale sortRun fuel scan (rest.map f) (prev.map f)
        (mapStack f stack) =
      (runLoop p before' scratch eager minGood scale sortRun' fuel scan rest prev stack).map
        (List.map f) := by
  induction fuel generalizing scan rest prev stack with
  | zero => rfl
  | succ fuel ih =>
    cases rest with
    | nil =>
      rw [List.map_nil, runLoop, runLoop, collapse_map f hf hsort]
      cases collapse before' scratch sortRun' 0 prev stack with
      | none => rfl
      | some e => exact finishRun_map f hsort e.1
    | cons x xs =>
      have hcreate := createRun_map f hf p eager minGood (x :: xs)
      rw [List.map_cons] at hcreate
      rw [List.map_cons, runLoop, runLoop, hcreate]
      cases createRun p before' eager minGood (x :: xs) with
      | none => rfl
      | some e =>
        obtain ⟨next, rest'⟩ := e
        simp only [Option.map_some, Option.bind_eq_bind, Option.bind_some]
        have hlen : ∀ r : Run α, (r.map f).items.length = r.items.length :=
          fun r => List.length_map _
        rw [hlen, hlen, collapse_map f hf hsort]
        cases collapse before' scratch sortRun' (boundaryDepth scale (scan - prev.items.length) scan
            (scan + next.items.length)) prev stack with
        | none => rfl
        | some e' => exact ih _ rest' next ((e'.1, _) :: e'.2)

theorem runSort_map (p : Profile) (scratch : Nat) (eager : Bool) (v : List α) :
    runSort p before scratch eager sortRun (v.map f) =
      (runSort p before' scratch eager sortRun' v).map (List.map f) := by
  unfold runSort
  simp only [List.length_map]
  split
  · rfl
  · exact runLoop_map f hf hsort p scratch eager _ _ _ 0 v ⟨[], true⟩ []

end SortRun

/-! ### The stable quicksort -/

theorem median3_map (v : Array α) (a b c : Nat) :
    median3 before (v.map f) a b c = median3 before' v a b c := by
  unfold median3
  simp only [Array.getElem?_map]
  cases v[a]? <;> cases v[b]? <;> cases v[c]? <;> simp [hf]

/-- The median of medians reads the same positions: three medians of the same blocks, then the
median of their positions. -/
theorem median3Rec_map (v : Array α) (a b c n : Nat) :
    median3Rec before (v.map f) a b c n = median3Rec before' v a b c n := by
  fun_induction median3Rec before' v a b c n with
  | case1 a b c n h m ih₁ ih₂ ih₃ =>
    have hm : n / 8 = m := rfl
    rw [median3Rec, dif_pos h]
    simp only [hm, ih₁, ih₂, ih₃, median3_map f hf]
  | case2 a b c n h => rw [median3Rec, dif_neg h, median3_map f hf]

/-- The pivot is chosen at the same position. -/
theorem choosePivot_map (v : Array α) : choosePivot before (v.map f) = choosePivot before' v := by
  simp only [choosePivot, Array.size_map, median3_map f hf, median3Rec_map f hf]

omit hf in
theorem partitionAt_map (v : List α) (pivot : Nat) (pivotLeft : Bool) (goesLeft : β → Bool) :
    partitionAt (v.map f) pivot pivotLeft goesLeft =
      Prod.map (List.map f) (List.map f) (partitionAt v pivot pivotLeft (goesLeft ∘ f)) := by
  simp [partitionAt, List.zipIdx_map, List.filter_map, Function.comp_def]

/-- The work after the first split of a long run, on entries mapped by `f`, is that work on the
entries, mapped, when the recursive sorts are. -/
theorem quicksort_tail_map {p : Profile} {scratch fuel limit pos : Nat} {pivot : α}
    (ancestor : Option α) (parts : List α × List α)
    (hrec : ∀ w anc, quicksortWith p before scratch fuel (w.map f) (limit - 1) (anc.map f) =
      (quicksortWith p before' scratch fuel w (limit - 1) anc).map (List.map f)) :
    (if (parts.1.map f).isEmpty = true then
      (quicksortWith p before scratch fuel
          (partitionAt (parts.2.map f) pos true fun x => !before (f pivot) x).2 (limit - 1) none).bind
        fun sg => pure ((partitionAt (parts.2.map f) pos true fun x => !before (f pivot) x).1 ++ sg)
    else
      (quicksortWith p before scratch fuel (parts.2.map f) (limit - 1) (some (f pivot))).bind
        fun sr => (quicksortWith p before scratch fuel (parts.1.map f) (limit - 1)
          (ancestor.map f)).bind fun sl => pure (sl ++ sr)) =
    (if parts.1.isEmpty = true then
      (quicksortWith p before' scratch fuel
          (partitionAt parts.2 pos true fun x => !before' pivot x).2 (limit - 1) none).bind
        fun sg => pure ((partitionAt parts.2 pos true fun x => !before' pivot x).1 ++ sg)
    else
      (quicksortWith p before' scratch fuel parts.2 (limit - 1) (some pivot)).bind
        fun sr => (quicksortWith p before' scratch fuel parts.1 (limit - 1) ancestor).bind
          fun sl => pure (sl ++ sr)).map (List.map f) := by
  have hnone : ∀ w, quicksortWith p before scratch fuel (w.map f) (limit - 1) none =
      (quicksortWith p before' scratch fuel w (limit - 1) none).map (List.map f) :=
    fun w => hrec w none
  have hpivot : ∀ w, quicksortWith p before scratch fuel (w.map f) (limit - 1) (some (f pivot)) =
      (quicksortWith p before' scratch fuel w (limit - 1) (some pivot)).map (List.map f) :=
    fun w => hrec w (some pivot)
  have hequal : partitionAt (parts.2.map f) pos true (fun x => !before (f pivot) x) =
      Prod.map (List.map f) (List.map f) (partitionAt parts.2 pos true fun x => !before' pivot x) := by
    rw [partitionAt_map]
    simp only [Function.comp_def, hf]
  rw [List.isEmpty_map]
  split
  · rw [hequal, Prod.map_fst, Prod.map_snd, hnone]
    cases quicksortWith p before' scratch fuel (partitionAt parts.2 pos true fun x => !before' pivot x).2
        (limit - 1) none with
    | none => rfl
    | some sg => simp
  · rw [hpivot, hrec parts.1 ancestor]
    cases quicksortWith p before' scratch fuel parts.2 (limit - 1) (some pivot) with
    | none => rfl
    | some sr =>
      cases quicksortWith p before' scratch fuel parts.1 (limit - 1) ancestor with
      | none => rfl
      | some sl => simp

theorem quicksortWith_map (p : Profile) (scratch fuel : Nat) (v : List α) (limit : Nat)
    (ancestor : Option α) :
    quicksortWith p before scratch fuel (v.map f) limit (ancestor.map f) =
      (quicksortWith p before' scratch fuel v limit ancestor).map (List.map f) := by
  induction fuel generalizing v limit ancestor with
  | zero => rfl
  | succ fuel ih =>
    rw [quicksortWith, quicksortWith]
    simp only [List.length_map]
    split
    · exact smallSort_map f hf p v
    split
    · refine runSort_map f hf (fun xs => ?_) p scratch true v
      rw [List.length_map]
      exact ih xs _ none
    rw [← List.map_toArray, choosePivot_map f hf]
    cases choosePivot before' v.toArray with
    | none => rfl
    | some pos =>
      simp only [Option.bind_eq_bind, Option.bind_some, List.getElem?_map]
      cases v[pos]? with
      | none => rfl
      | some pivot =>
        simp only [Option.map_some, Option.bind_some]
        have hsplit : ∀ b : Bool, (if b = true then ([], v.map f)
            else partitionAt (v.map f) pos false fun x => before x (f pivot)) =
            Prod.map (List.map f) (List.map f)
              (if b = true then ([], v) else partitionAt v pos false fun x => before' x pivot) := by
          intro b
          cases b
          · simp [partitionAt_map, Function.comp_def, hf]
          · rfl
        cases ancestor with
        | none =>
          rw [Option.map_none]
          dsimp only
          rw [hsplit]
          simp only [Prod.map_fst, Prod.map_snd]
          exact quicksort_tail_map f hf none _ fun w anc => ih w (limit - 1) anc
        | some a =>
          rw [Option.map_some]
          dsimp only
          simp only [hf]
          rw [hsplit]
          simp only [Prod.map_fst, Prod.map_snd]
          exact quicksort_tail_map f hf (some a) _ fun w anc => ih w (limit - 1) anc

theorem stableQuicksort_map (p : Profile) (scratch : Nat) (v : List α) :
    stableQuicksort p before scratch (v.map f) =
      (stableQuicksort p before' scratch v).map (List.map f) := by
  unfold stableQuicksort
  rw [List.length_map]
  exact quicksortWith_map f hf p scratch _ v _ none

/-- Sorting mapped entries is sorting the entries by the order of their images, then mapping. -/
theorem stableSort_map (p : Profile) (v : List α) :
    stableSort p before (v.map f) = (stableSort p before' v).map (List.map f) := by
  unfold stableSort
  simp only [List.length_map]
  split
  · rw [insertionSort_map f hf]
    rfl
  · exact runSort_map f hf (stableQuicksort_map f hf p _) p _ _ v

end Introspect.Sorting
