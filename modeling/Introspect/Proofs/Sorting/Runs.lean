import Introspect.Sorting.Runs
import Introspect.Proofs.Sorting.SmallSort
import Introspect.Proofs.Sorting.Merge
import Mathlib

/-!
# Sorting by runs

The sort by runs cuts its input into runs, keeps a stack of them, and merges runs on the stack.
Every run stands for a segment of the input (`Stands`): a sorted run holds an acceptable result
for its segment, an unsorted one (lazy mode only) holds the segment itself, and the segments of
the runs on the stack, bottom first, make up what has been read. Making a run
(`createRun_returns`), merging two (`mergeLogical_returns`) and collapsing the stack
(`collapse_returns`) keep this, so when the input is used up the one run left stands for all of it
(`runSort_returns`).

"Acceptable" is left open (`RunSpec`) so that the argument is made once for two readings. With a
strict weak order an acceptable result is the stable sort, and everything succeeds
(`runSort_eq_sortSpec`); with any relation it is a permutation, for whatever the sort returns
(`runSort_perm`). `Returns` says both: what a computation returns satisfies a property, and, when
required, that it returns something.

The ordered stretches at the front of the input are sorted (`sorted_nondescending`), or strictly
descending and sorted once reversed (`sortsTo_reverse_of_descending`), so a stretch kept as a run
is the stable sort of its segment (`existingRun_eq_sortSpec`).
-/

set_option autoImplicit false
set_option relaxedAutoImplicit false

namespace Introspect.Sorting

variable {α : Type}

section Outcome

variable {β γ : Type} {total : Bool} {c : Option β} {S : β → Prop}

/-- Every value `c` returns satisfies `S`, and, when `total`, `c` returns one. -/
def Returns (total : Bool) (c : Option β) (S : β → Prop) : Prop :=
  (∀ b, c = some b → S b) ∧ (total = true → c.isSome = true)

theorem Returns.some {b : β} (hb : S b) : Returns total (some b) S :=
  ⟨fun _ h => Option.some.inj h ▸ hb, fun _ => rfl⟩

theorem Returns.none : Returns false (none : Option β) S :=
  ⟨fun _ h => (by cases h), fun h => (by cases h)⟩

theorem Returns.bind {f : β → Option γ} {T : γ → Prop} (hc : Returns total c S)
    (hf : ∀ b, S b → Returns total (f b) T) : Returns total (c.bind f) T := by
  refine ⟨fun y hy => ?_, fun ht => ?_⟩
  · obtain ⟨b, hb, hfb⟩ := Option.bind_eq_some_iff.mp hy
    exact (hf b (hc.1 b hb)).1 y hfb
  · obtain ⟨b, hb⟩ := Option.isSome_iff_exists.mp (hc.2 ht)
    rw [hb, Option.bind_some]
    exact (hf b (hc.1 b hb)).2 ht

theorem Returns.mono {T : β → Prop} (hc : Returns total c S) (hST : ∀ b, S b → T b) :
    Returns total c T :=
  ⟨fun b hb => hST b (hc.1 b hb), hc.2⟩

/-- A total computation returns a value satisfying `S`. -/
theorem Returns.exists_eq_some (hc : Returns true c S) : ∃ b, c = Option.some b ∧ S b := by
  obtain ⟨b, hb⟩ := Option.isSome_iff_exists.mp (hc.2 rfl)
  exact ⟨b, hb, hc.1 b hb⟩

end Outcome

section Stretches

variable {P : α → Prop} {before : α → α → Bool} (h : StrictWeakOrder P before)
include h

/-- A nondescending stretch is sorted. -/
theorem sorted_nondescending {prev : α} {xs : List α} (hprev : P prev) (hxs : ∀ x ∈ xs, P x) :
    Sorted before (prev :: xs.take (nondescendingCount before prev xs)) := by
  induction xs generalizing prev with
  | nil => simp [Sorted]
  | cons x xs ih =>
    by_cases hx : before x prev = true
    · simp [nondescendingCount, hx, Sorted]
    · have hxprev : before x prev = false := by simpa using hx
      have hxP := hxs x List.mem_cons_self
      have hrest := ih hxP fun y hy => hxs y (List.mem_cons_of_mem x hy)
      rw [nondescendingCount, if_neg hx, List.take_succ_cons]
      refine List.pairwise_cons.mpr ⟨fun y hy => ?_, hrest⟩
      rcases List.mem_cons.mp hy with rfl | hy
      · exact hxprev
      · exact h.not_before_trans hprev hxP
          (hxs y (List.mem_cons_of_mem x (List.mem_of_mem_take hy)))
          hxprev ((List.pairwise_cons.mp hrest).1 y hy)

/-- In a strictly descending stretch every entry sorts before every entry ahead of it. -/
theorem descending_pairwise {prev : α} {xs : List α} (hprev : P prev) (hxs : ∀ x ∈ xs, P x) :
    (prev :: xs.take (descendingCount before prev xs)).Pairwise fun a b => before b a = true := by
  induction xs generalizing prev with
  | nil => simp
  | cons x xs ih =>
    by_cases hx : before x prev = true
    · have hxP := hxs x List.mem_cons_self
      have hrest := ih hxP fun y hy => hxs y (List.mem_cons_of_mem x hy)
      rw [descendingCount, if_pos hx, List.take_succ_cons]
      refine List.pairwise_cons.mpr ⟨fun y hy => ?_, hrest⟩
      rcases List.mem_cons.mp hy with rfl | hy
      · exact hx
      · exact h.trans y x prev (hxs y (List.mem_cons_of_mem x (List.mem_of_mem_take hy))) hxP hprev
          ((List.pairwise_cons.mp hrest).1 y hy) hx
    · simp [descendingCount, hx]

/-- A strictly descending list, reversed, is its stable sort: it is sorted, and no two of its
entries tie. -/
theorem sortsTo_reverse_of_descending {xs : List α} (hxs : ∀ x ∈ xs, P x)
    (hdesc : xs.Pairwise fun a b => before b a = true) : SortsTo P before xs xs.reverse := by
  refine ⟨List.reverse_perm xs, ?_, fun c hc => ?_⟩
  · rw [Sorted, List.pairwise_reverse]
    exact hdesc.imp_of_mem fun ha hb hba => h.asymm (hxs _ hb) (hxs _ ha) hba
  · have hties : (xs.filter (tie before c)).Pairwise fun a b => before b a = true :=
      hdesc.sublist List.filter_sublist
    rw [List.filter_reverse]
    rcases hf : xs.filter (tie before c) with _ | ⟨a, _ | ⟨b, rest⟩⟩
    · rfl
    · rfl
    · have ha : a ∈ xs.filter (tie before c) := by simp [hf]
      have hb : b ∈ xs.filter (tie before c) := by simp [hf]
      have hab : tie before a b = true :=
        h.tie_trans (hxs a (List.mem_filter.mp ha).1) hc (hxs b (List.mem_filter.mp hb).1)
          (by rw [StrictWeakOrder.tie_symm]; exact (List.mem_filter.mp ha).2)
          (List.mem_filter.mp hb).2
      have hpair : (a :: b :: rest).Pairwise fun a b => before b a = true := hf ▸ hties
      have hba := (List.pairwise_cons.mp hpair).1 b List.mem_cons_self
      simp [tie_eq_true.mp hab] at hba

/-- An ordered stretch at the front, reversed when it descends, is the stable sort of its
segment. -/
theorem existingRun_eq_sortSpec {s : List α} (hs : ∀ x ∈ s, P x) :
    (if (existingRun before s).2 then (s.take (existingRun before s).1).reverse
      else s.take (existingRun before s).1) =
      sortSpec before (s.take (existingRun before s).1) := by
  have htake : ∀ x ∈ s.take (existingRun before s).1, P x :=
    fun x hx => hs x (List.mem_of_mem_take hx)
  match s, hs, htake with
  | v0 :: v1 :: rest, hs, htake =>
    have h0 := hs v0 List.mem_cons_self
    have htail : ∀ x ∈ v1 :: rest, P x := fun x hx => hs x (List.mem_cons_of_mem v0 hx)
    by_cases h10 : before v1 v0 = true
    · have hlen :
          descendingCount before v1 rest + 2 = descendingCount before v0 (v1 :: rest) + 1 := by
        simp [descendingCount, h10]
      simp only [existingRun, h10, hlen, List.take_succ_cons, ↓reduceIte] at htake ⊢
      exact (sortsTo_reverse_of_descending h htake (descending_pairwise h h0 htail)).eq_sortSpec h
        htake
    · have hlen :
          nondescendingCount before v1 rest + 2 =
            nondescendingCount before v0 (v1 :: rest) + 1 := by
        simp [nondescendingCount, h10]
      simp only [existingRun, if_neg h10, hlen, List.take_succ_cons, Bool.false_eq_true,
        if_false] at htake ⊢
      exact (sortsTo_of_sorted (sorted_nondescending h h0 htail)).eq_sortSpec h htake
  | [], _, _ => simp [existingRun, sortSpec]
  | [_], _, _ => simp [existingRun, sortSpec]

end Stretches

theorem existingRun_pos (before : α → α → Bool) {s : List α} (hs : s ≠ []) :
    0 < (existingRun before s).1 := by
  match s, hs with
  | [_], _ => simp [existingRun]
  | _ :: _ :: _, _ => simp only [existingRun]; split <;> omega

theorem sqrtApprox_pos {n : Nat} (hn : 0 < n) : 0 < sqrtApprox n := by
  unfold sqrtApprox
  simp only [Nat.shiftLeft_eq, Nat.one_mul, Nat.shiftRight_eq_div_pow]
  generalize (1 + Nat.log2 (n ||| 1)) / 2 = shift
  rcases Nat.eq_zero_or_pos shift with rfl | hshift
  · simp only [Nat.pow_zero, Nat.div_one]
    omega
  · have htwo : 2 ^ 1 ≤ 2 ^ shift := Nat.pow_le_pow_right Nat.two_pos hshift
    have hdiv : 0 ≤ n / 2 ^ shift := Nat.zero_le _
    omega

/-- A kept stretch is at least one entry long. -/
theorem minGoodRun_pos {n : Nat} (hn : 2 ≤ n) : 0 < minGoodRun n := by
  unfold minGoodRun
  split
  · omega
  · exact sqrtApprox_pos (by omega)

/-- A run stands for the segment `s` of the input, whose entries satisfy `P`: sorted, it holds an
acceptable result for `s`; unsorted, it holds `s` itself, which only happens in lazy mode. -/
structure Stands (P : α → Prop) (Good : List α → List α → Prop) (eager : Bool) (r : Run α)
    (s : List α) : Prop where
  entries : ∀ x ∈ s, P x
  items : if r.sorted then Good s r.items else r.items = s
  sorted_of_eager : eager = true → r.sorted = true

/-- What the sort by runs needs of its notion `Good s out` of an acceptable result `out` for a
segment `s` whose entries satisfy `P`: a segment of at most one entry is one for itself, merging
two is one for the two segments together, an ordered stretch (reversed when it descends) is one,
and the small-input sort and, in lazy mode, `sortRun` return one. -/
structure RunSpec (P : α → Prop) (Good : List α → List α → Prop) (total : Bool) (p : Profile)
    (before : α → α → Bool) (eager : Bool) (sortRun : List α → Option (List α)) : Prop where
  short : ∀ s, s.length ≤ 1 → Good s s
  merge : ∀ sl sr l r, (∀ x ∈ sl, P x) → (∀ x ∈ sr, P x) → Good sl l → Good sr r →
    Good (sl ++ sr) (mergeRuns before l r)
  ordered : ∀ s, (∀ x ∈ s, P x) →
    Good (s.take (existingRun before s).1)
      (if (existingRun before s).2 then (s.take (existingRun before s).1).reverse
        else s.take (existingRun before s).1)
  small : ∀ s, (∀ x ∈ s, P x) → Returns total (smallSort p before s) (Good s)
  sortRun : eager = false → ∀ s, (∀ x ∈ s, P x) → Returns total (sortRun s) (Good s)

theorem mergeLogical_eq (before : α → α → Bool) (scratch : Nat)
    (sortRun : List α → Option (List α)) (l r : Run α) :
    mergeLogical before scratch sortRun l r =
      if scratch < l.items.length + r.items.length ∨ l.sorted = true ∨ r.sorted = true then
        (if l.sorted then some l.items else sortRun l.items).bind fun l' =>
          (if r.sorted then some r.items else sortRun r.items).bind fun r' =>
            some ⟨mergeRuns before l' r', true⟩
      else some ⟨l.items ++ r.items, false⟩ := by
  unfold mergeLogical
  split_ifs <;> rfl

section Generic

variable {P : α → Prop} {Good : List α → List α → Prop} {total : Bool} {p : Profile}
  {before : α → α → Bool} {eager : Bool} {sortRun : List α → Option (List α)}
  (spec : RunSpec P Good total p before eager sortRun)
include spec

/-- The next run stands for a nonempty segment at the front of what is left. An ordered stretch long
enough is kept as a run; otherwise eager mode sorts a block at once and lazy mode leaves one
unsorted. -/
theorem createRun_returns {minGood : Nat} {rest : List α} (hrest : rest ≠ [])
    (hP : ∀ x ∈ rest, P x) (hmin : eager = false → 0 < minGood) :
    Returns total (createRun p before eager minGood rest) fun res =>
      ∃ k, 0 < k ∧ res.2 = rest.drop k ∧ Stands P Good eager res.1 (rest.take k) := by
  have hlen : 0 < rest.length := List.length_pos_iff.mpr hrest
  have htake : ∀ k, ∀ x ∈ rest.take k, P x := fun k x hx => hP x (List.mem_of_mem_take hx)
  have hpos := existingRun_pos before hrest
  have hordered := spec.ordered rest hP
  unfold createRun
  rcases hrun : existingRun before rest with ⟨len, desc⟩
  rw [hrun] at hpos hordered
  dsimp only at hpos hordered ⊢
  split
  · exact Returns.some ⟨len, hpos, rfl, htake len, by simpa using hordered, fun _ => rfl⟩
  · split
    · exact (spec.small _ (htake _)).bind fun sorted hsorted =>
        Returns.some ⟨min smallSortLimit rest.length, by simp only [smallSortLimit]; omega, rfl,
          htake _, by simpa using hsorted, fun _ => rfl⟩
    · rename_i heager
      have hmin' := hmin (by simpa using heager)
      exact Returns.some ⟨min minGood rest.length, by omega, rfl, htake _, by simp,
        fun h => absurd h heager⟩

/-- Merging two adjacent runs gives a run standing for both segments. A side that is not sorted is
sorted first, which only happens in lazy mode; when both are unsorted the merge is only logical. -/
theorem mergeLogical_returns {scratch : Nat} {l r : Run α} {sl sr : List α}
    (hl : Stands P Good eager l sl) (hr : Stands P Good eager r sr) :
    Returns total (mergeLogical before scratch sortRun l r) fun m =>
      Stands P Good eager m (sl ++ sr) := by
  have hside : ∀ {x : Run α} {sx : List α}, Stands P Good eager x sx →
      Returns total (if x.sorted then some x.items else sortRun x.items) (Good sx) := by
    intro x sx hx
    by_cases hxs : x.sorted = true
    · rw [if_pos hxs]
      exact Returns.some (by simpa [hxs] using hx.items)
    · have hitems : x.items = sx := by simpa [hxs] using hx.items
      have hlazy : eager = false := by
        cases heager : eager
        · rfl
        · exact absurd (hx.sorted_of_eager heager) hxs
      rw [if_neg hxs, hitems]
      exact spec.sortRun hlazy sx hx.entries
  have hentries : ∀ x ∈ sl ++ sr, P x := by
    simpa [or_imp, forall_and] using And.intro hl.entries hr.entries
  rw [mergeLogical_eq]
  split
  · exact (hside hl).bind fun l' hl' => (hside hr).bind fun r' hr' =>
      Returns.some ⟨hentries, by simpa using spec.merge sl sr l' r' hl.entries hr.entries hl' hr',
        fun _ => rfl⟩
  · rename_i hcond
    have hls : l.sorted = false := by simp_all
    have hrs : r.sorted = false := by simp_all
    have hlitems : l.items = sl := by simpa [hls] using hl.items
    have hritems : r.items = sr := by simpa [hrs] using hr.items
    exact Returns.some ⟨hentries, by simp [hlitems, hritems],
      fun heager => absurd (hl.sorted_of_eager heager) (by simp [hls])⟩

/-- Collapsing merges runs at the top of the stack, never its bottom entry: each run still stands
for its segment, the segments, bottom first, still make up what was read, and at depth `0` only
one run is left above the bottom. -/
theorem collapse_returns {scratch depth : Nat} (bottom : Run α × Nat) :
    ∀ (middle : List (Run α × Nat)) (prev : Run α) (segs : List (List α)) (sp : List α),
      List.Forall₂ (Stands P Good eager) (middle.map Prod.fst) segs →
      Stands P Good eager prev sp →
      Returns total (collapse before scratch sortRun depth prev (middle ++ [bottom])) fun res =>
        ∃ middle' segs' sp', res.2 = middle' ++ [bottom] ∧
          List.Forall₂ (Stands P Good eager) (middle'.map Prod.fst) segs' ∧
          Stands P Good eager res.1 sp' ∧
          segs'.reverse.flatten ++ sp' = segs.reverse.flatten ++ sp ∧
          (depth = 0 → middle' = []) := by
  obtain ⟨r₀, d₀⟩ := bottom
  intro middle
  induction middle with
  | nil =>
    intro prev segs sp hmiddle hprev
    rw [List.nil_append, collapse.eq_2 _ _ _ _ _ _ (by simp)]
    exact Returns.some ⟨[], segs, sp, rfl, hmiddle, hprev, rfl, fun _ => rfl⟩
  | cons top middle ih =>
    obtain ⟨left, d⟩ := top
    intro prev segs sp hmiddle hprev
    obtain ⟨sl, segs₀, rfl, hleft, hrest⟩ : ∃ sl segs₀, segs = sl :: segs₀ ∧
        Stands P Good eager left sl ∧
        List.Forall₂ (Stands P Good eager) (middle.map Prod.fst) segs₀ := by
      cases hmiddle with
      | cons hleft hrest => exact ⟨_, _, rfl, hleft, hrest⟩
    obtain ⟨head, tail, hbelow⟩ : ∃ head tail, middle ++ [(r₀, d₀)] = head :: tail :=
      List.exists_cons_of_ne_nil (by simp)
    rw [List.cons_append, hbelow, collapse.eq_1, ← hbelow]
    by_cases hd : depth ≤ d
    · rw [if_pos hd]
      refine (mergeLogical_returns spec hleft hprev).bind fun merged hmerged => ?_
      refine (ih merged segs₀ (sl ++ sp) hrest hmerged).mono ?_
      rintro res ⟨middle', segs', sp', hstack, hsegs, hres, hcat, hzero⟩
      exact ⟨middle', segs', sp', hstack, hsegs, hres, by simp [hcat], hzero⟩
    · rw [if_neg hd]
      exact Returns.some ⟨(left, d) :: middle, sl :: segs₀, sp, rfl, List.Forall₂.cons hleft hrest,
        hprev, rfl, fun h0 => absurd (h0 ▸ Nat.zero_le d) hd⟩

/-- With enough fuel the run loop ends with one run, standing for the whole input: every run on the
stack stands for its segment, and the segments, the last run's and what is left make up the
input. -/
theorem runLoop_returns {v : List α} {scratch minGood scale : Nat}
    (hmin : eager = false → 0 < minGood) (bottom : Run α × Nat) :
    ∀ (fuel scan : Nat) (rest : List α) (prev : Run α) (middle : List (Run α × Nat))
      (segs : List (List α)) (sp : List α),
      (∀ x ∈ rest, P x) → List.Forall₂ (Stands P Good eager) (middle.map Prod.fst) segs →
      Stands P Good eager prev sp → segs.reverse.flatten ++ sp ++ rest = v →
      (total = true → rest.length < fuel) →
      Returns total (runLoop p before scratch eager minGood scale sortRun fuel scan rest prev
        (middle ++ [bottom])) (Good v) := by
  intro fuel
  induction fuel with
  | zero =>
    intro scan rest prev middle segs sp _ _ _ _ hfuel
    cases total
    · rw [runLoop.eq_1]
      exact Returns.none
    · exact absurd (hfuel rfl) (Nat.not_lt_zero _)
  | succ fuel ih =>
    intro scan rest prev middle segs sp hrest hmiddle hprev hcat hfuel
    cases rest with
    | nil =>
      rw [runLoop.eq_2]
      refine (collapse_returns spec bottom middle prev segs sp hmiddle hprev).bind ?_
      rintro ⟨whole, stack⟩ ⟨middle', segs', sp', -, hsegs, hwhole, hcat', hzero⟩
      obtain rfl := hzero rfl
      obtain rfl : segs' = [] := by cases hsegs; rfl
      obtain rfl : sp' = v := by simpa [← hcat'] using hcat
      dsimp only
      by_cases hsorted : whole.sorted = true
      · rw [if_pos hsorted]
        exact Returns.some (by simpa [hsorted] using hwhole.items)
      · have hitems : whole.items = sp' := by simpa [hsorted] using hwhole.items
        have hlazy : eager = false := by
          cases heager : eager
          · rfl
          · exact absurd (hwhole.sorted_of_eager heager) hsorted
        rw [if_neg hsorted, hitems]
        exact spec.sortRun hlazy sp' hwhole.entries
    | cons x xs =>
      rw [runLoop.eq_3]
      refine (createRun_returns spec (List.cons_ne_nil x xs) hrest hmin).bind ?_
      rintro ⟨next, rest'⟩ ⟨k, hk, hrest', hnext⟩
      dsimp only at hrest' hnext ⊢
      refine (collapse_returns spec bottom middle prev segs sp hmiddle hprev).bind ?_
      rintro ⟨prev', stack'⟩ ⟨middle', segs', sp', hstack, hsegs, hprev', hcat', -⟩
      dsimp only at hstack hprev' ⊢
      rw [hstack, ← List.cons_append, hrest']
      refine ih _ _ next _ (sp' :: segs') _ (fun y hy => hrest y (List.mem_of_mem_drop hy))
        (List.Forall₂.cons hprev' hsegs) hnext ?_ ?_
      · rw [← hcat, ← List.take_append_drop k (x :: xs)]
        simp [← hcat']
      · intro htotal
        have := hfuel htotal
        simp only [List.length_drop, List.length_cons] at this ⊢
        omega

/-- Sorting by runs returns an acceptable result for its whole input. The first step pushes the
empty start run, which stays at the bottom of the stack. -/
theorem runSort_returns {scratch : Nat} {v : List α} (hv : ∀ x ∈ v, P x) :
    Returns total (runSort p before scratch eager sortRun v) (Good v) := by
  unfold runSort
  dsimp only
  by_cases hshort : v.length < 2
  · rw [if_pos hshort]
    exact Returns.some (spec.short v (by omega))
  · rw [if_neg hshort]
    obtain ⟨x, xs, rfl⟩ : ∃ x xs, v = x :: xs :=
      List.exists_cons_of_ne_nil (by rintro rfl; simp at hshort)
    have hmin : eager = false → 0 < minGoodRun (x :: xs).length :=
      fun _ => minGoodRun_pos (by omega)
    rw [runLoop.eq_3]
    refine (createRun_returns spec (List.cons_ne_nil x xs) hv hmin).bind ?_
    rintro ⟨next, rest'⟩ ⟨k, hk, hrest', hnext⟩
    dsimp only at hrest' hnext ⊢
    rw [collapse.eq_2 _ _ _ _ _ _ (by simp), Option.bind_eq_bind, Option.bind_some, hrest']
    exact runLoop_returns spec hmin _ _ _ _ next [] [] _
      (fun y hy => hv y (List.mem_of_mem_drop hy)) List.Forall₂.nil hnext (by simp)
      (fun _ => by simp only [List.length_drop, List.length_cons]; omega)

end Generic

section Readings

variable {P : α → Prop} {before : α → α → Bool} {sortRun : List α → Option (List α)}

/-- With a strict weak order the stable sort is the acceptable result, and each sort that the sort
by runs calls returns it. -/
theorem runSpec_sortSpec (h : StrictWeakOrder P before) (p : Profile) (eager : Bool)
    (hsortRun : eager = false → ∀ s, (∀ x ∈ s, P x) → sortRun s = some (sortSpec before s)) :
    RunSpec P (fun s out => out = sortSpec before s) true p before eager sortRun where
  short s hs := (sortSpec_of_length_le_one hs).symm
  merge sl sr l r hl hr hl' hr' := by
    have hsl := sortsTo_sortSpec h hl
    have hsr := sortsTo_sortSpec h hr
    rw [hl', hr', mergeRuns_eq_merge h hsl.sorted hsr.sorted (fun x hx => hl x (hsl.perm.subset hx))
      (fun x hx => hr x (hsr.perm.subset hx)), merge_sortSpec h hl hr]
  ordered s hs := existingRun_eq_sortSpec h hs
  small s hs := by
    rw [smallSort_eq_sortSpec h p hs]
    exact Returns.some rfl
  sortRun hlazy s hs := by
    rw [hsortRun hlazy s hs]
    exact Returns.some rfl

/-- With a strict weak order, sorting by runs is the stable sort, given that `sortRun` is, in lazy
mode, on the runs it is given. -/
theorem runSort_eq_sortSpec (h : StrictWeakOrder P before) (p : Profile) (scratch : Nat)
    (eager : Bool)
    (hsortRun : eager = false → ∀ s, (∀ x ∈ s, P x) → sortRun s = some (sortSpec before s))
    {v : List α} (hv : ∀ x ∈ v, P x) :
    runSort p before scratch eager sortRun v = some (sortSpec before v) := by
  obtain ⟨ys, hys, rfl⟩ := (runSort_returns (runSpec_sortSpec h p eager hsortRun) hv).exists_eq_some
  exact hys

/-- With any relation, every result is a permutation of its segment. -/
theorem runSpec_perm (p : Profile) (before : α → α → Bool) (eager : Bool)
    (hsortRun : ∀ s ys, sortRun s = some ys → ys.Perm s) :
    RunSpec (fun _ => True) (fun s out => out.Perm s) false p before eager sortRun where
  short s _ := List.Perm.refl s
  merge sl sr l r _ _ hl hr := (mergeRuns_perm before l r).trans (hl.append hr)
  ordered s _ := by
    split
    · exact List.reverse_perm _
    · exact List.Perm.refl _
  small _ _ := ⟨fun _ hys => smallSort_perm before p hys, fun h => (by cases h)⟩
  sortRun _ s _ := ⟨fun ys hys => hsortRun s ys hys, fun h => (by cases h)⟩

/-- With any relation, what sorting by runs returns is a permutation of its input, given that
`sortRun` only returns permutations. -/
theorem runSort_perm (p : Profile) (before : α → α → Bool) (scratch : Nat) (eager : Bool)
    (hsortRun : ∀ s ys, sortRun s = some ys → ys.Perm s) {v ys : List α}
    (hys : runSort p before scratch eager sortRun v = some ys) : ys.Perm v :=
  (runSort_returns (runSpec_perm p before eager hsortRun) fun _ _ => trivial).1 ys hys

end Readings

end Introspect.Sorting
