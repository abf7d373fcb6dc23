import Introspect.Sorting.SmallSort
import Introspect.Proofs.Sorting.Insertion
import Introspect.Proofs.Sorting.TwoEnded
import Mathlib.Tactic.SplitIfs

/-!
# The small-input sort is the stable sort

`sort4` orders two pairs and then merges them: its five comparisons find the least of the two
pair minima, the greatest of the two pair maxima, and order the two entries left. On sorted pairs
this is exactly the stable merge of the pairs (`sort4_of_sorted_pairs`), and ordering the pairs
first changes nothing (`sort4_sortPairs`), so `sort4` is the stable sort of its four entries
(`sort4_eq_sortSpec`). Blocks of eight are two such blocks merged from both ends, each half starts
from its sorted block and inserts the rest, and the two halves are merged from both ends, so the
small-input sort is the stable sort (`smallSort_eq_sortSpec`).

With any relation every step only rearranges entries, so whatever the small-input sort returns is a
permutation of its input (`smallSort_perm`).
-/

set_option autoImplicit false
set_option relaxedAutoImplicit false

namespace Introspect.Sorting

variable {α : Type} {P : α → Prop} {before : α → α → Bool}

theorem insertionSort_pair (before : α → α → Bool) (x y : α) :
    insertionSort before [x, y] = if before y x then [y, x] else [x, y] := by
  cases hyx : before y x <;> simp [insertionSort, placeAll, placeFromRight, hyx]

theorem sortSpec_of_length_le_one {xs : List α} (hxs : xs.length ≤ 1) :
    sortSpec before xs = xs := by
  match xs, hxs with
  | [], _ => simp [sortSpec]
  | [_], _ => simp [sortSpec]

section Four

variable (h : StrictWeakOrder P before)
include h

/-- On two sorted pairs `sort4` is their stable merge. Both pairs keep their ends, and the middle
two are ordered by the last comparison. -/
theorem sort4_of_sorted_pairs {a b c d : α} (ha : P a) (hb : P b) (hc : P c) (hd : P d)
    (hab : before b a = false) (hcd : before d c = false) :
    sort4 before a b c d = [a, b].merge [c, d] fun u v => !before v u := by
  simp only [sort4, hab, hcd, Bool.false_eq_true, if_false]
  cases hca : before c a <;> cases hdb : before d b
  · cases hcb : before c b <;> simp [hca, hdb, hcb]
  · have hcb : before c b = true := h.before_of_not_before_of_before hc hd hb hcd hdb
    simp [hca, hdb, hcb, hcd]
  · have hda : before d a = false := h.not_before_trans ha hb hd hab hdb
    simp [hca, hdb, hab, hda]
  · cases hda : before d a <;> simp [hca, hdb, hda]

/-- Ordering the pairs before calling `sort4` changes nothing. -/
theorem sort4_sortPairs {v0 v1 v2 v3 : α} (h0 : P v0) (h1 : P v1) (h2 : P v2) (h3 : P v3) :
    sort4 before v0 v1 v2 v3 =
      sort4 before (if before v1 v0 then v1 else v0) (if before v1 v0 then v0 else v1)
        (if before v3 v2 then v3 else v2) (if before v3 v2 then v2 else v3) := by
  cases h10 : before v1 v0 <;> cases h32 : before v3 v2
  · rfl
  · have h23 := h.asymm h3 h2 h32
    simp [sort4, h10, h32, h23]
  · have h01 := h.asymm h1 h0 h10
    simp [sort4, h10, h32, h01]
  · have h01 := h.asymm h1 h0 h10
    have h23 := h.asymm h3 h2 h32
    simp [sort4, h10, h32, h01, h23]

/-- `sort4` is the stable merge of its two pairs, each sorted. -/
theorem sort4_eq_merge {v0 v1 v2 v3 : α} (h0 : P v0) (h1 : P v1) (h2 : P v2) (h3 : P v3) :
    sort4 before v0 v1 v2 v3 =
      (insertionSort before [v0, v1]).merge (insertionSort before [v2, v3])
        fun u v => !before v u := by
  rw [sort4_sortPairs h h0 h1 h2 h3, insertionSort_pair, insertionSort_pair]
  cases h10 : before v1 v0 <;> cases h32 : before v3 v2
  · exact sort4_of_sorted_pairs h h0 h1 h2 h3 h10 h32
  · exact sort4_of_sorted_pairs h h0 h1 h3 h2 h10 (h.asymm h3 h2 h32)
  · exact sort4_of_sorted_pairs h h1 h0 h2 h3 (h.asymm h1 h0 h10) h32
  · exact sort4_of_sorted_pairs h h1 h0 h3 h2 (h.asymm h1 h0 h10) (h.asymm h3 h2 h32)

theorem sortsTo_sort4 {v0 v1 v2 v3 : α} (h0 : P v0) (h1 : P v1) (h2 : P v2) (h3 : P v3) :
    SortsTo P before [v0, v1, v2, v3] (sort4 before v0 v1 v2 v3) := by
  have hleft : ∀ x ∈ [v0, v1], P x := by simp [h0, h1]
  have hright : ∀ x ∈ [v2, v3], P x := by simp [h2, h3]
  rw [sort4_eq_merge h h0 h1 h2 h3, insertionSort_eq_sortSpec h hleft,
    insertionSort_eq_sortSpec h hright]
  exact sortsTo_merge h hleft hright (sortsTo_sortSpec h hleft) (sortsTo_sortSpec h hright)

theorem sort4_eq_sortSpec {v0 v1 v2 v3 : α} (h0 : P v0) (h1 : P v1) (h2 : P v2) (h3 : P v3) :
    sort4 before v0 v1 v2 v3 = sortSpec before [v0, v1, v2, v3] :=
  (sortsTo_sort4 h h0 h1 h2 h3).eq_sortSpec h (by simp [h0, h1, h2, h3])

end Four

/-- With any relation, `sort4` rearranges its four entries. -/
theorem sort4_perm (before : α → α → Bool) (v0 v1 v2 v3 : α) :
    (sort4 before v0 v1 v2 v3).Perm [v0, v1, v2, v3] := by
  classical
  rw [List.perm_iff_count]
  intro z
  unfold sort4
  cases before v1 v0 <;> cases before v3 v2 <;> simp only [Bool.false_eq_true, if_true, if_false]
    <;> split <;> split <;> split <;> simp only [List.count_cons, List.count_nil] <;> omega

/-- A half starts from its presorted block and inserts the rest. -/
theorem sortHalf_eq_bind (before : α → α → Bool) (count : Nat) (half : List α) :
    sortHalf before count half =
      (if count = 8 then sort8 before (half.take count)
        else if count = 4 then presort4 before (half.take count) else some (half.take count)).bind
        fun start => some (placeAll before start.reverse (half.drop count)).reverse := by
  unfold sortHalf
  split_ifs <;> rfl

section Halves

variable (h : StrictWeakOrder P before)
include h

/-- The stable merge of the stable sorts of two lists is the stable sort of the two together. -/
theorem merge_sortSpec {xs ys : List α} (hxs : ∀ x ∈ xs, P x) (hys : ∀ y ∈ ys, P y) :
    (sortSpec before xs).merge (sortSpec before ys) (fun u v => !before v u) =
      sortSpec before (xs ++ ys) := by
  have hs := sortsTo_merge h hxs hys (sortsTo_sortSpec h hxs) (sortsTo_sortSpec h hys)
  exact hs.eq_sortSpec h (by simpa [or_imp, forall_and] using And.intro hxs hys)

/-- Merging the stable sorts of the two halves from both ends sorts the whole. -/
theorem mergeTwoEnded_sortSpec {xs ys : List α} (hxs : ∀ x ∈ xs, P x) (hys : ∀ y ∈ ys, P y)
    (hlen : xs.length = (xs.length + ys.length) / 2) :
    mergeTwoEnded before (sortSpec before xs ++ sortSpec before ys).toArray =
      some (sortSpec before (xs ++ ys)) := by
  have hl := sortsTo_sortSpec h hxs
  have hr := sortsTo_sortSpec h hys
  rw [mergeTwoEnded_eq_merge h hl.sorted hr.sorted (fun z hz => hxs z (hl.perm.subset hz))
    (fun z hz => hys z (hr.perm.subset hz))
    (by rw [hl.perm.length_eq, hr.perm.length_eq]; exact hlen),
    merge_sortSpec h hxs hys]

theorem presort4_eq_sortSpec {block : List α} (hlen : block.length = 4)
    (hP : ∀ x ∈ block, P x) : presort4 before block = some (sortSpec before block) := by
  match block, hlen with
  | [v0, v1, v2, v3], _ =>
    exact congrArg some (sort4_eq_sortSpec h (hP v0 (by simp)) (hP v1 (by simp))
      (hP v2 (by simp)) (hP v3 (by simp)))

theorem sort8_eq_sortSpec {block : List α} (hlen : block.length = 8)
    (hP : ∀ x ∈ block, P x) : sort8 before block = some (sortSpec before block) := by
  match block, hlen with
  | [v0, v1, v2, v3, v4, v5, v6, v7], _ =>
    have hl : ∀ x ∈ [v0, v1, v2, v3], P x := fun x hx =>
      hP x (List.mem_append_left [v4, v5, v6, v7] hx)
    have hr : ∀ x ∈ [v4, v5, v6, v7], P x := fun x hx =>
      hP x (List.mem_append_right [v0, v1, v2, v3] hx)
    rw [sort8, sort4_eq_sortSpec h (hl v0 (by simp)) (hl v1 (by simp)) (hl v2 (by simp))
      (hl v3 (by simp)), sort4_eq_sortSpec h (hr v4 (by simp)) (hr v5 (by simp))
      (hr v6 (by simp)) (hr v7 (by simp))]
    exact mergeTwoEnded_sortSpec h hl hr (by simp)

/-- A half is sorted from its presorted block, which is short or of the size its sort takes. -/
theorem sortHalf_eq_sortSpec {count : Nat} {half : List α}
    (hcount : count ≤ 1 ∨ (count = 4 ∧ 4 ≤ half.length) ∨ (count = 8 ∧ 8 ≤ half.length))
    (hP : ∀ x ∈ half, P x) : sortHalf before count half = some (sortSpec before half) := by
  have hblock : ∀ x ∈ half.take count, P x := fun x hx => hP x (List.mem_of_mem_take hx)
  have hstart : (if count = 8 then sort8 before (half.take count)
      else if count = 4 then presort4 before (half.take count) else some (half.take count)) =
        some (sortSpec before (half.take count)) := by
    rcases hcount with hle | ⟨rfl, hlen⟩ | ⟨rfl, hlen⟩
    · rw [if_neg (by omega), if_neg (by omega), sortSpec_of_length_le_one (by simp; omega)]
    · exact presort4_eq_sortSpec h (by simp; omega) hblock
    · exact sort8_eq_sortSpec h (by simp; omega) hblock
  have hs := sortsTo_placeAll h (half.drop count) hblock
    (fun x hx => hP x (List.mem_of_mem_drop hx)) (sortsTo_sortSpec h hblock)
  rw [List.take_append_drop] at hs
  rw [sortHalf_eq_bind, hstart, Option.bind_some]
  exact congrArg some (hs.eq_sortSpec h hP)

end Halves

theorem presortedCount_cases (p : Profile) (n : Nat) :
    presortedCount p n ≤ 1 ∨ (presortedCount p n = 4 ∧ 8 ≤ n) ∨
      (presortedCount p n = 8 ∧ 16 ≤ n) := by
  unfold presortedCount
  by_cases h16 : (p.narrow && decide (16 ≤ n)) = true
  · simp only [Bool.and_eq_true, decide_eq_true_eq] at h16
    simp [h16]
  · by_cases h8 : 8 ≤ n
    · simp [h16, h8]
    · simp [h16, h8]

/-- The small-input sort is the stable sort. -/
theorem smallSort_eq_sortSpec (h : StrictWeakOrder P before) (p : Profile) {v : List α}
    (hP : ∀ x ∈ v, P x) : smallSort p before v = some (sortSpec before v) := by
  unfold smallSort
  by_cases hshort : v.length < 2
  · rw [if_pos hshort, sortSpec_of_length_le_one (by omega)]
  · rw [if_neg hshort]
    have hfits : ∀ half : List α, v.length / 2 ≤ half.length →
        presortedCount p v.length ≤ 1 ∨
          (presortedCount p v.length = 4 ∧ 4 ≤ half.length) ∨
          (presortedCount p v.length = 8 ∧ 8 ≤ half.length) := by
      intro half hhalf
      rcases presortedCount_cases p v.length with hc | ⟨hc, hn⟩ | ⟨hc, hn⟩
      · exact Or.inl hc
      · exact Or.inr (Or.inl ⟨hc, by omega⟩)
      · exact Or.inr (Or.inr ⟨hc, by omega⟩)
    have hl : ∀ x ∈ v.take (v.length / 2), P x := fun x hx => hP x (List.mem_of_mem_take hx)
    have hr : ∀ x ∈ v.drop (v.length / 2), P x := fun x hx => hP x (List.mem_of_mem_drop hx)
    simp only [sortHalf_eq_sortSpec h (hfits _ (by simp; omega)) hl,
      sortHalf_eq_sortSpec h (hfits _ (by simp; omega)) hr, Option.bind_eq_bind, Option.bind_some]
    rw [mergeTwoEnded_sortSpec h hl hr (by simp; omega), List.take_append_drop]

section Perm

variable (before : α → α → Bool)

theorem presort4_perm {block ys : List α} (hys : presort4 before block = some ys) :
    ys.Perm block := by
  match block, hys with
  | [v0, v1, v2, v3], hys =>
    rw [presort4, Option.some.injEq] at hys
    exact hys ▸ sort4_perm before v0 v1 v2 v3

theorem sort8_perm {block ys : List α} (hys : sort8 before block = some ys) : ys.Perm block := by
  match block, hys with
  | [v0, v1, v2, v3, v4, v5, v6, v7], hys =>
    rw [sort8] at hys
    have hmerge := mergeTwoEnded_perm before _ hys
    rw [List.toList_toArray] at hmerge
    exact hmerge.trans ((sort4_perm before v0 v1 v2 v3).append (sort4_perm before v4 v5 v6 v7))

theorem sortHalf_perm {count : Nat} {half ys : List α}
    (hys : sortHalf before count half = some ys) : ys.Perm half := by
  rw [sortHalf_eq_bind, Option.bind_eq_some_iff] at hys
  obtain ⟨start, hstart, hys⟩ := hys
  rw [← Option.some.inj hys]
  have hblock : start.Perm (half.take count) := by
    split at hstart
    · exact sort8_perm before hstart
    · split at hstart
      · exact presort4_perm before hstart
      · exact List.Perm.of_eq (Option.some.inj hstart).symm
  have hplace := placeAll_perm before (half.drop count) start.reverse
  refine (List.reverse_perm _).trans (hplace.trans ?_)
  refine ((List.reverse_perm _).append ((List.reverse_perm _).trans hblock)).trans ?_
  exact List.perm_append_comm.trans (by rw [List.take_append_drop])

/-- With any relation, what the small-input sort returns is a permutation of its input. -/
theorem smallSort_perm (p : Profile) {v ys : List α} (hys : smallSort p before v = some ys) :
    ys.Perm v := by
  unfold smallSort at hys
  by_cases hshort : v.length < 2
  · rw [if_pos hshort] at hys
    exact List.Perm.of_eq (Option.some.inj hys).symm
  · rw [if_neg hshort] at hys
    simp only [Option.bind_eq_bind, Option.bind_eq_some_iff] at hys
    obtain ⟨a, ha, b, hb, hmerge⟩ := hys
    have hperm := mergeTwoEnded_perm before _ hmerge
    rw [List.toList_toArray] at hperm
    refine hperm.trans (((sortHalf_perm before ha).append (sortHalf_perm before hb)).trans ?_)
    rw [List.take_append_drop]

end Perm

end Introspect.Sorting
