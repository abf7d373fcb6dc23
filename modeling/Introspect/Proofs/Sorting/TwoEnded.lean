import Introspect.Sorting.Merge
import Introspect.Proofs.Sorting.Spec

/-!
# Merging from both ends

`mergeTwoEnded` merges the halves `a` and `b` of an array from both ends at once. From the front
it writes the next entry of `a` unless the next entry of `b` sorts before it; from the back it
writes the last entry of `b` unless it sorts before the last entry of `a`.

Both ends move along *cuts* (`Cut`): the first `i` entries of `a` and the first `j` of `b` form a
cut when they are the first `i + j` entries of the stable merge. The merge splits at every cut
(`merge_eq_of_cut`, from `merge_append_append`), and when both halves are sorted by a strict weak
order each step at either end goes from one cut to the next (`Cut.succ_left`, `Cut.succ_right`,
`Cut.pred_left`, `Cut.pred_right`). Cuts of one size are unique and cuts of sizes one apart are one
entry apart (`Cut.le_of_le`), so after `n / 2` steps at each end both ends stand at the same cut,
or, for odd `n`, one entry apart; the ends meet and the output is the merge
(`mergeTwoEnded_eq_merge`).

With any relation each end still reads only entries in range, and an output that passes the final
check keeps the entries of the input (`mergeTwoEnded_perm`).
-/

set_option autoImplicit false
set_option relaxedAutoImplicit false

namespace Introspect.Sorting

variable {α : Type}

/-- A merge of two concatenations splits in two when every entry of `A₁` may go before every
entry of `B₂` and every entry of `B₁` must go before every entry of `A₂`. -/
theorem merge_append_append (le : α → α → Bool) (A₁ A₂ B₁ B₂ : List α)
    (h₁ : ∀ x ∈ A₁, ∀ y ∈ B₂, le x y = true) (h₂ : ∀ y ∈ B₁, ∀ x ∈ A₂, le x y = false) :
    (A₁ ++ A₂).merge (B₁ ++ B₂) le = A₁.merge B₁ le ++ A₂.merge B₂ le := by
  induction A₁ generalizing B₁ with
  | nil =>
    induction B₁ with
    | nil => simp
    | cons y B₁ ih =>
      have ih' := ih fun y' hy' x hx => h₂ y' (List.mem_cons_of_mem y hy') x hx
      simp only [List.nil_append, List.nil_merge, List.cons_append] at ih' ⊢
      cases A₂ with
      | nil => simp
      | cons x A₂ =>
        rw [List.cons_merge_cons, h₂ y List.mem_cons_self x List.mem_cons_self, ih']
        simp
  | cons x A₁ ih =>
    induction B₁ with
    | nil =>
      cases B₂ with
      | nil => simp
      | cons y B₂ =>
        have hrest := ih [] (fun x' hx' y' hy' => h₁ x' (List.mem_cons_of_mem x hx') y' hy')
          (by simp)
        simp only [List.nil_append, List.merge_right, List.cons_append] at hrest ⊢
        rw [List.cons_merge_cons, h₁ x List.mem_cons_self y List.mem_cons_self, if_pos rfl, hrest]
    | cons y B₁ ihB =>
      have ihB' := ihB fun y' hy' x' hx' => h₂ y' (List.mem_cons_of_mem y hy') x' hx'
      have ih' := ih (y :: B₁) (fun x' hx' y' hy' => h₁ x' (List.mem_cons_of_mem x hx') y' hy') h₂
      simp only [List.cons_append] at ihB' ih' ⊢
      rw [List.cons_merge_cons, List.cons_merge_cons]
      cases hxy : le x y
      · simp [ihB']
      · simp [ih']

section Positions

variable {l : List α} {i n : Nat} {x : α}

theorem drop_eq_cons_of_getElem? (hx : l[i]? = some x) : l.drop i = x :: l.drop (i + 1) := by
  obtain ⟨hi, rfl⟩ := List.getElem?_eq_some_iff.mp hx
  exact List.drop_eq_getElem_cons hi

theorem take_succ_of_getElem? (hx : l[i]? = some x) : l.take (i + 1) = l.take i ++ [x] := by
  rw [List.take_add_one, hx]
  rfl

theorem mem_take_of_getElem? (hx : l[i]? = some x) (hi : i < n) : x ∈ l.take n :=
  List.mem_of_getElem? (by rw [List.getElem?_take, if_pos hi, hx])

theorem mem_drop_of_getElem? (hx : l[i]? = some x) (hi : n ≤ i) : x ∈ l.drop n :=
  List.mem_of_getElem? (by rw [List.getElem?_drop, Nat.add_sub_cancel' hi, hx])

variable {before : α → α → Bool}

/-- In a sorted list the entries ahead of `x` are not after it. -/
theorem Sorted.not_before_of_mem_take (hs : Sorted before l) (hx : l[i]? = some x) :
    ∀ z ∈ l.take i, before x z = false := by
  have hpre := List.Pairwise.take (i := i + 1) hs
  rw [take_succ_of_getElem? hx, List.pairwise_append] at hpre
  exact fun z hz => hpre.2.2 z hz x (List.mem_singleton_self x)

/-- In a sorted list the entries behind `x` are not before it. -/
theorem Sorted.not_before_of_mem_drop (hs : Sorted before l) (hx : l[i]? = some x) :
    ∀ z ∈ l.drop (i + 1), before z x = false := by
  have hpost := List.Pairwise.drop (i := i) hs
  rw [drop_eq_cons_of_getElem? hx] at hpost
  exact (List.pairwise_cons.mp hpost).1

end Positions

section Cut

variable {before : α → α → Bool} {a b : List α} {i j : Nat} {x y : α}

/-- The first `i` entries of `a` and the first `j` of `b` are the first `i + j` entries of their
stable merge: no entry of `b` from `j` on sorts before an entry of `a` below `i`, and every entry of
`b` below `j` sorts before every entry of `a` from `i` on. -/
def Cut (before : α → α → Bool) (a b : List α) (i j : Nat) : Prop :=
  (∀ x ∈ a.take i, ∀ y ∈ b.drop j, before y x = false) ∧
    ∀ y ∈ b.take j, ∀ x ∈ a.drop i, before y x = true

theorem cut_zero : Cut before a b 0 0 := by simp [Cut]

theorem cut_length : Cut before a b a.length b.length := by simp [Cut]

/-- The stable merge splits at every cut. -/
theorem merge_eq_of_cut (hc : Cut before a b i j) :
    a.merge b (fun u v => !before v u) =
      (a.take i).merge (b.take j) (fun u v => !before v u) ++
        (a.drop i).merge (b.drop j) (fun u v => !before v u) := by
  have hsplit := merge_append_append (fun u v => !before v u) (a.take i) (a.drop i) (b.take j)
    (b.drop j) (fun u hu v hv => by simp [hc.1 u hu v hv])
    (fun v hv u hu => by simp [hc.2 v hv u hu])
  rwa [List.take_append_drop, List.take_append_drop] at hsplit

/-- At a cut, the next entry of `a` may follow the front of the merge. -/
theorem merge_take_succ_left (hc : Cut before a b i j) (hx : a[i]? = some x) :
    (a.take (i + 1)).merge (b.take j) (fun u v => !before v u) =
      (a.take i).merge (b.take j) (fun u v => !before v u) ++ [x] := by
  have hxi : x ∈ a.drop i := mem_drop_of_getElem? hx (Nat.le_refl i)
  have hsplit := merge_append_append (fun u v => !before v u) (a.take i) [x] (b.take j) []
    (by simp) (fun v hv u hu => by simp [List.mem_singleton.mp hu, hc.2 v hv x hxi])
  rw [take_succ_of_getElem? hx]
  simpa using hsplit

/-- At a cut, the next entry of `b` may follow the front of the merge. -/
theorem merge_take_succ_right (hc : Cut before a b i j) (hy : b[j]? = some y) :
    (a.take i).merge (b.take (j + 1)) (fun u v => !before v u) =
      (a.take i).merge (b.take j) (fun u v => !before v u) ++ [y] := by
  have hyj : y ∈ b.drop j := mem_drop_of_getElem? hy (Nat.le_refl j)
  have hsplit := merge_append_append (fun u v => !before v u) (a.take i) [] (b.take j) [y]
    (fun u hu v hv => by simp [List.mem_singleton.mp hv, hc.1 u hu y hyj]) (by simp)
  rw [take_succ_of_getElem? hy]
  simpa using hsplit

/-- Below a cut, its last entry of `a` heads the rest of the merge. -/
theorem merge_drop_left (hc : Cut before a b (i + 1) j) (hx : a[i]? = some x) :
    (a.drop i).merge (b.drop j) (fun u v => !before v u) =
      x :: (a.drop (i + 1)).merge (b.drop j) (fun u v => !before v u) := by
  have hxi : x ∈ a.take (i + 1) := mem_take_of_getElem? hx (Nat.lt_succ_self i)
  have hsplit := merge_append_append (fun u v => !before v u) [x] (a.drop (i + 1)) []
    (b.drop j) (fun u hu v hv => by simp [List.mem_singleton.mp hu, hc.1 x hxi v hv]) (by simp)
  rw [drop_eq_cons_of_getElem? hx]
  simpa using hsplit

/-- Below a cut, its last entry of `b` heads the rest of the merge. -/
theorem merge_drop_right (hc : Cut before a b i (j + 1)) (hy : b[j]? = some y) :
    (a.drop i).merge (b.drop j) (fun u v => !before v u) =
      y :: (a.drop i).merge (b.drop (j + 1)) (fun u v => !before v u) := by
  have hyj : y ∈ b.take (j + 1) := mem_take_of_getElem? hy (Nat.lt_succ_self j)
  have hsplit := merge_append_append (fun u v => !before v u) [] (a.drop i) [y]
    (b.drop (j + 1)) (by simp)
    (fun v hv u hu => by simp [List.mem_singleton.mp hv, hc.2 y hyj u hu])
  rw [drop_eq_cons_of_getElem? hy]
  simpa using hsplit

/-- Cuts are ordered coordinatewise by their size: a cut that takes more of `a` than a cut at
least as large would have an entry of `b` both before and not before an entry of `a`. -/
theorem Cut.le_of_le {i' j' : Nat} (hc : Cut before a b i j) (hc' : Cut before a b i' j')
    (hi : i ≤ a.length) (hj : j ≤ b.length) (hi' : i' ≤ a.length) (hj' : j' ≤ b.length)
    (hle : i + j ≤ i' + j') : i ≤ i' ∧ j ≤ j' := by
  constructor
  · refine Nat.le_of_not_lt fun hlt => ?_
    obtain ⟨x, hx⟩ : ∃ x, a[i']? = some x := ⟨a[i'], List.getElem?_eq_getElem (by omega)⟩
    obtain ⟨y, hy⟩ : ∃ y, b[j]? = some y := ⟨b[j], List.getElem?_eq_getElem (by omega)⟩
    have hnot := hc.1 x (mem_take_of_getElem? hx hlt) y (mem_drop_of_getElem? hy (Nat.le_refl j))
    have hyes := hc'.2 y (mem_take_of_getElem? hy (by omega)) x
      (mem_drop_of_getElem? hx (Nat.le_refl i'))
    simp [hnot] at hyes
  · refine Nat.le_of_not_lt fun hlt => ?_
    obtain ⟨x, hx⟩ : ∃ x, a[i]? = some x := ⟨a[i], List.getElem?_eq_getElem (by omega)⟩
    obtain ⟨y, hy⟩ : ∃ y, b[j']? = some y := ⟨b[j'], List.getElem?_eq_getElem (by omega)⟩
    have hyes := hc.2 y (mem_take_of_getElem? hy hlt) x (mem_drop_of_getElem? hx (Nat.le_refl i))
    have hnot := hc'.1 x (mem_take_of_getElem? hx (by omega)) y
      (mem_drop_of_getElem? hy (Nat.le_refl j'))
    simp [hnot] at hyes

section Steps

variable {P : α → Prop} (h : StrictWeakOrder P before) (haP : ∀ z ∈ a, P z) (hbP : ∀ z ∈ b, P z)
include h haP hbP

/-- From the front: the next entry of `a` goes next when the next entry of `b` is not before it. -/
theorem Cut.succ_left (hb : Sorted before b) (hc : Cut before a b i j) (hx : a[i]? = some x)
    (hy : b[j]? = some y) (hyx : before y x = false) : Cut before a b (i + 1) j := by
  refine ⟨fun z hz w hw => ?_, fun w hw z hz =>
    hc.2 w hw z ((List.drop_sublist_drop_left a (Nat.le_succ i)).subset hz)⟩
  rw [take_succ_of_getElem? hx, List.mem_append, List.mem_singleton] at hz
  rcases hz with hz | rfl
  · exact hc.1 z hz w hw
  · rw [drop_eq_cons_of_getElem? hy, List.mem_cons] at hw
    rcases hw with rfl | hw
    · exact hyx
    · exact h.not_before_trans (haP z (List.mem_of_getElem? hx)) (hbP y (List.mem_of_getElem? hy))
        (hbP w (List.mem_of_mem_drop hw)) hyx (hb.not_before_of_mem_drop hy w hw)

/-- From the front: the next entry of `b` goes next when it sorts before the next entry of `a`. -/
theorem Cut.succ_right (ha : Sorted before a) (hc : Cut before a b i j) (hx : a[i]? = some x)
    (hy : b[j]? = some y) (hyx : before y x = true) : Cut before a b i (j + 1) := by
  refine ⟨fun z hz w hw => hc.1 z hz w ((List.drop_sublist_drop_left b (Nat.le_succ j)).subset hw),
    fun w hw z hz => ?_⟩
  rw [take_succ_of_getElem? hy, List.mem_append, List.mem_singleton] at hw
  rcases hw with hw | rfl
  · exact hc.2 w hw z hz
  · rw [drop_eq_cons_of_getElem? hx, List.mem_cons] at hz
    rcases hz with rfl | hz
    · exact hyx
    · exact h.before_of_before_of_not_before (hbP w (List.mem_of_getElem? hy))
        (haP x (List.mem_of_getElem? hx)) (haP z (List.mem_of_mem_drop hz)) hyx
        (ha.not_before_of_mem_drop hx z hz)

/-- From the back: the last entry of `b` goes last when it is not before the last entry of `a`. -/
theorem Cut.pred_right (ha : Sorted before a) (hc : Cut before a b (i + 1) (j + 1))
    (hx : a[i]? = some x) (hy : b[j]? = some y) (hyx : before y x = false) :
    Cut before a b (i + 1) j := by
  refine ⟨fun z hz w hw => ?_, fun w hw z hz =>
    hc.2 w ((List.take_sublist_take_left (Nat.le_succ j)).subset hw) z hz⟩
  rw [drop_eq_cons_of_getElem? hy, List.mem_cons] at hw
  rcases hw with rfl | hw
  · rw [take_succ_of_getElem? hx, List.mem_append, List.mem_singleton] at hz
    rcases hz with hz | rfl
    · exact h.not_before_trans (haP z (List.mem_of_mem_take hz)) (haP x (List.mem_of_getElem? hx))
        (hbP w (List.mem_of_getElem? hy)) (ha.not_before_of_mem_take hx z hz) hyx
    · exact hyx
  · exact hc.1 z hz w hw

/-- From the back: the last entry of `a` goes last when the last entry of `b` sorts before it. -/
theorem Cut.pred_left (hb : Sorted before b) (hc : Cut before a b (i + 1) (j + 1))
    (hx : a[i]? = some x) (hy : b[j]? = some y) (hyx : before y x = true) :
    Cut before a b i (j + 1) := by
  refine ⟨fun z hz w hw => hc.1 z ((List.take_sublist_take_left (Nat.le_succ i)).subset hz) w hw,
    fun w hw z hz => ?_⟩
  rw [drop_eq_cons_of_getElem? hx, List.mem_cons] at hz
  rcases hz with rfl | hz
  · rw [take_succ_of_getElem? hy, List.mem_append, List.mem_singleton] at hw
    rcases hw with hw | rfl
    · exact h.before_of_not_before_of_before (hbP w (List.mem_of_mem_take hw))
        (hbP y (List.mem_of_getElem? hy)) (haP z (List.mem_of_getElem? hx))
        (hb.not_before_of_mem_take hy w hw) hyx
    · exact hyx
  · exact hc.2 w hw z hz

end Steps

end Cut

section Run

variable {before : α → α → Bool} {a b : List α}

theorem getElem?_toArray_append_left {k : Nat} (hk : k < a.length) :
    (a ++ b).toArray[k]? = a[k]? := by
  rw [List.getElem?_toArray, List.getElem?_append_left hk]

theorem getElem?_toArray_append_right (k : Nat) : (a ++ b).toArray[a.length + k]? = b[k]? := by
  rw [List.getElem?_toArray, List.getElem?_append_right (Nat.le_add_right _ _),
    Nat.add_sub_cancel_left]

theorem exists_getElem?_toArray {k : Nat} (hk : k < a.length + b.length) :
    ∃ x, (a ++ b).toArray[k]? = some x := by
  have hk' : k < (a ++ b).length := by simpa using hk
  exact ⟨(a ++ b)[k], by rw [List.getElem?_toArray, List.getElem?_eq_getElem hk']⟩

/-- One step at each end, once the four entries it reads are there. -/
theorem step_eq_of_reads {src : Array α} {s : TwoEnded α} {l r lb rb : α}
    (hz : ¬ (s.leftEnd = 0 ∨ s.rightEnd = 0)) (hl : src[s.left]? = some l)
    (hr : src[s.right]? = some r) (hlb : src[s.leftEnd - 1]? = some lb)
    (hrb : src[s.rightEnd - 1]? = some rb) :
    s.step before src = some
      { left := if !before r l then s.left + 1 else s.left
        right := if !before r l then s.right else s.right + 1
        leftEnd := if !before rb lb then s.leftEnd else s.leftEnd - 1
        rightEnd := if !before rb lb then s.rightEnd - 1 else s.rightEnd
        front := (if !before r l then l else r) :: s.front
        back := (if !before rb lb then rb else lb) :: s.back } := by
  simp only [TwoEnded.step, hz, hl, hr, hlb, hrb, if_false]
  rfl

/-- The steps from `init` keep every invariant that one step keeps. -/
theorem foldlM_step_of_invariant (before : α → α → Bool) (Inv : Nat → TwoEnded α → Prop)
    (src : Array α)
    (init : TwoEnded α) (n : Nat) (h0 : Inv 0 init)
    (hstep : ∀ k < n, ∀ s, Inv k s → ∃ s', s.step before src = some s' ∧ Inv (k + 1) s') :
    ∃ s, (List.range n).foldlM (fun s _ => s.step before src) init = some s ∧ Inv n s := by
  induction n with
  | zero => exact ⟨init, rfl, h0⟩
  | succ n ih =>
    obtain ⟨s, hs, hinv⟩ := ih fun k hk => hstep k (by omega)
    obtain ⟨s', hs', hinv'⟩ := hstep n (by omega) s hinv
    refine ⟨s', ?_, hinv'⟩
    rw [List.range_succ, List.foldlM_append, hs]
    simpa using hs'

/-- After `k` steps the front has taken `a`'s first `left` entries and `b`'s first `j`; the next
entry of `b` is at `right`. -/
def FrontPos (a b : List α) (k left right j : Nat) : Prop :=
  right = a.length + j ∧ left + j = k ∧ left ≤ a.length ∧ j ≤ b.length

/-- After `k` steps the back has left `a`'s first `leftEnd` entries and `b`'s first `j`; the last
of those of `b` is just below `rightEnd`. -/
def BackPos (a b : List α) (k leftEnd rightEnd j : Nat) : Prop :=
  rightEnd = a.length + j ∧ leftEnd + j + k = a.length + b.length ∧ leftEnd ≤ a.length ∧
    j ≤ b.length

/-- Within the first `a.length` steps the ends have not run into each other's half: all four
entries a step reads are there. -/
theorem reads_of_pos {k j j' : Nat} {s : TwoEnded α} (hk : k < a.length)
    (hab : a.length ≤ b.length) (hf : FrontPos a b k s.left s.right j)
    (hback : BackPos a b k s.leftEnd s.rightEnd j') :
    ¬ (s.leftEnd = 0 ∨ s.rightEnd = 0) ∧ (∃ l, (a ++ b).toArray[s.left]? = some l) ∧
      (∃ r, (a ++ b).toArray[s.right]? = some r) ∧
      (∃ lb, (a ++ b).toArray[s.leftEnd - 1]? = some lb) ∧
      ∃ rb, (a ++ b).toArray[s.rightEnd - 1]? = some rb := by
  obtain ⟨hright, hcount, -, hj⟩ := hf
  obtain ⟨hrightEnd, hcount', hleftEnd, hj'⟩ := hback
  exact ⟨by omega, exists_getElem?_toArray (by omega), exists_getElem?_toArray (by omega),
    exists_getElem?_toArray (by omega), exists_getElem?_toArray (by omega)⟩

/-- After `k` steps the front stands at a cut and has written, last entry first, the merge of the
entries it has taken. -/
def FrontAt (before : α → α → Bool) (a b : List α) (k left right : Nat) (front : List α) :
    Prop :=
  ∃ j, FrontPos a b k left right j ∧ Cut before a b left j ∧
    front.reverse = (a.take left).merge (b.take j) fun u v => !before v u

/-- After `k` steps the back stands at a cut and has written the merge of the entries past it. -/
def BackAt (before : α → α → Bool) (a b : List α) (k leftEnd rightEnd : Nat) (back : List α) :
    Prop :=
  ∃ j, BackPos a b k leftEnd rightEnd j ∧ Cut before a b leftEnd j ∧
    back = (a.drop leftEnd).merge (b.drop j) fun u v => !before v u

theorem frontAt_zero : FrontAt before a b 0 0 a.length [] :=
  ⟨0, ⟨rfl, rfl, Nat.zero_le _, Nat.zero_le _⟩, cut_zero, by simp⟩

theorem backAt_zero : BackAt before a b 0 a.length (a.length + b.length) [] :=
  ⟨b.length, ⟨rfl, rfl, Nat.le_refl _, Nat.le_refl _⟩, cut_length, by simp⟩

section Sorted

variable {P : α → Prop} (h : StrictWeakOrder P before) (ha : Sorted before a)
  (hb : Sorted before b) (haP : ∀ z ∈ a, P z) (hbP : ∀ z ∈ b, P z)
include h ha hb haP hbP

/-- A step at the front goes to the next cut and writes the next entry of the merge. -/
theorem FrontAt.step {k left right : Nat} {front : List α} {l r : α}
    (hf : FrontAt before a b k left right front) (hk : k < a.length) (hab : a.length ≤ b.length)
    (hl : (a ++ b).toArray[left]? = some l) (hr : (a ++ b).toArray[right]? = some r) :
    FrontAt before a b (k + 1) (if !before r l then left + 1 else left)
      (if !before r l then right else right + 1) ((if !before r l then l else r) :: front) := by
  obtain ⟨j, ⟨rfl, hcount, hleft, hj⟩, hc, hfront⟩ := hf
  rw [getElem?_toArray_append_left (by omega)] at hl
  rw [getElem?_toArray_append_right] at hr
  cases hrl : before r l
  · refine ⟨j, ⟨by simp, by simp; omega, by simp; omega, hj⟩, ?_, ?_⟩
    · simpa using Cut.succ_left h haP hbP hb hc hl hr hrl
    · simp [hfront, merge_take_succ_left hc hl]
  · refine ⟨j + 1, ⟨by simp; omega, by simp; omega, by simpa using hleft, by omega⟩, ?_, ?_⟩
    · simpa using Cut.succ_right h haP hbP ha hc hl hr hrl
    · simp [hfront, merge_take_succ_right hc hr]

/-- A step at the back goes to the previous cut and writes the previous entry of the merge. -/
theorem BackAt.step {k leftEnd rightEnd : Nat} {back : List α} {lb rb : α}
    (hback : BackAt before a b k leftEnd rightEnd back) (hk : k < a.length)
    (hab : a.length ≤ b.length) (hlb : (a ++ b).toArray[leftEnd - 1]? = some lb)
    (hrb : (a ++ b).toArray[rightEnd - 1]? = some rb) :
    BackAt before a b (k + 1) (if !before rb lb then leftEnd else leftEnd - 1)
      (if !before rb lb then rightEnd - 1 else rightEnd)
      ((if !before rb lb then rb else lb) :: back) := by
  obtain ⟨j, ⟨rfl, hcount, hle, hj⟩, hc, hrest⟩ := hback
  obtain ⟨i, rfl⟩ : ∃ i, leftEnd = i + 1 := ⟨leftEnd - 1, by omega⟩
  obtain ⟨j', rfl⟩ : ∃ j', j = j' + 1 := ⟨j - 1, by omega⟩
  rw [Nat.add_sub_cancel, getElem?_toArray_append_left (by omega)] at hlb
  rw [show a.length + (j' + 1) - 1 = a.length + j' by omega, getElem?_toArray_append_right] at hrb
  cases hyx : before rb lb
  · refine ⟨j', ⟨by simp, by simp; omega, by simpa using hle, by omega⟩, ?_, ?_⟩
    · simpa using Cut.pred_right h haP hbP ha hc hlb hrb hyx
    · simp [hrest, merge_drop_right hc hrb]
  · refine ⟨j' + 1, ⟨by simp, by simp; omega, by simp; omega, hj⟩, ?_, ?_⟩
    · simpa using Cut.pred_left h haP hbP hb hc hlb hrb hyx
    · simp [hrest, merge_drop_left hc hlb]

theorem step_of_at {k : Nat} {s : TwoEnded α} (hk : k < a.length) (hab : a.length ≤ b.length)
    (hf : FrontAt before a b k s.left s.right s.front)
    (hback : BackAt before a b k s.leftEnd s.rightEnd s.back) :
    ∃ s', s.step before (a ++ b).toArray = some s' ∧
      FrontAt before a b (k + 1) s'.left s'.right s'.front ∧
      BackAt before a b (k + 1) s'.leftEnd s'.rightEnd s'.back := by
  obtain ⟨j, hpos, -⟩ := id hf
  obtain ⟨j', hpos', -⟩ := id hback
  obtain ⟨hz, ⟨l, hl⟩, ⟨r, hr⟩, ⟨lb, hlb⟩, ⟨rb, hrb⟩⟩ := reads_of_pos hk hab hpos hpos'
  exact ⟨_, step_eq_of_reads hz hl hr hlb hrb,
    FrontAt.step h ha hb haP hbP hf hk hab hl hr, BackAt.step h ha hb haP hbP hback hk hab hlb hrb⟩

/-- When both halves are sorted by a strict weak order, the merge from both ends is the stable
merge. The ends stand at cuts of sizes `n / 2` and `n - n / 2`; when they meet, at most one entry is
left between them. -/
theorem mergeTwoEnded_eq_merge (hlen : a.length = (a.length + b.length) / 2) :
    mergeTwoEnded before (a ++ b).toArray = some (a.merge b fun u v => !before v u) := by
  have hsize : (a ++ b).toArray.size = a.length + b.length := by simp
  have hab : a.length ≤ b.length := by omega
  obtain ⟨s, hfold, hf, hback⟩ := foldlM_step_of_invariant before
    (fun k s => FrontAt before a b k s.left s.right s.front ∧
      BackAt before a b k s.leftEnd s.rightEnd s.back)
    (a ++ b).toArray ⟨0, a.length, a.length, a.length + b.length, [], []⟩ a.length
    ⟨frontAt_zero, backAt_zero⟩ (fun k hk s hs => step_of_at h ha hb haP hbP hk hab hs.1 hs.2)
  obtain ⟨j, ⟨hright, hcount, hleft, hj⟩, hc, hfront⟩ := hf
  obtain ⟨j', ⟨hrightEnd, hcount', hleftEnd, hj'⟩, hc', hrest⟩ := hback
  have hmono := hc.le_of_le hc' hleft hj hleftEnd hj' (by omega)
  simp only [mergeTwoEnded, hsize, ← hlen, hfold, Option.bind_eq_bind, Option.bind_some,
    Option.pure_def]
  by_cases hodd : (a.length + b.length) % 2 = 1
  · rcases Nat.lt_or_ge s.left s.leftEnd with hlt | hge
    · obtain ⟨x, hx⟩ : ∃ x, a[s.left]? = some x := ⟨a[s.left], List.getElem?_eq_getElem (by omega)⟩
      have hread : (a ++ b).toArray[s.left]? = some x := by
        rw [getElem?_toArray_append_left (by omega), hx]
      have hi : s.leftEnd = s.left + 1 := by omega
      have hj'' : j' = j := by omega
      rw [hi, hj''] at hrest hc'
      simp only [hodd, hlt, decide_true, if_true]
      rw [hread, Option.bind_some, if_pos ⟨hi.symm, by omega⟩, hfront, hrest,
        ← merge_take_succ_left hc hx]
      exact congrArg some (merge_eq_of_cut hc').symm
    · obtain ⟨y, hy⟩ : ∃ y, b[j]? = some y := ⟨b[j], List.getElem?_eq_getElem (by omega)⟩
      have hread : (a ++ b).toArray[s.right]? = some y := by
        rw [hright, getElem?_toArray_append_right, hy]
      have hi : s.leftEnd = s.left := by omega
      have hj'' : j' = j + 1 := by omega
      rw [hi, hj''] at hrest hc'
      simp only [hodd, Nat.not_lt.mpr hge, decide_false, if_true, Bool.false_eq_true, if_false]
      rw [hread, Option.bind_some, if_pos ⟨hi.symm, by omega⟩, hfront, hrest,
        ← merge_take_succ_right hc hy]
      exact congrArg some (merge_eq_of_cut hc').symm
  · have hi : s.leftEnd = s.left := by omega
    have hj'' : j' = j := by omega
    rw [hi, hj''] at hrest
    simp only [hodd, if_false]
    rw [if_pos ⟨hi.symm, by omega⟩, List.append_nil, hfront, hrest]
    exact congrArg some (merge_eq_of_cut hc).symm

end Sorted

section Keeps

/-- After `k` steps the front has written, last entry first and in some order, the entries it has
taken. -/
def FrontKeeps (a b : List α) (k left right : Nat) (front : List α) : Prop :=
  ∃ j, FrontPos a b k left right j ∧ front.reverse.Perm (a.take left ++ b.take j)

/-- After `k` steps the back has written, in some order, the entries past where it stands. -/
def BackKeeps (a b : List α) (k leftEnd rightEnd : Nat) (back : List α) : Prop :=
  ∃ j, BackPos a b k leftEnd rightEnd j ∧ back.Perm (a.drop leftEnd ++ b.drop j)

variable {F B : List α} {i j : Nat} {x : α}

theorem perm_take_succ_left (hx : a[i]? = some x) (hF : F.Perm (a.take i ++ b.take j)) :
    (F ++ [x]).Perm (a.take (i + 1) ++ b.take j) := by
  rw [take_succ_of_getElem? hx, List.append_assoc]
  refine (hF.append_right [x]).trans ?_
  rw [List.append_assoc]
  exact List.perm_append_comm.append_left _

theorem perm_take_succ_right (hy : b[j]? = some x) (hF : F.Perm (a.take i ++ b.take j)) :
    (F ++ [x]).Perm (a.take i ++ b.take (j + 1)) := by
  rw [take_succ_of_getElem? hy, ← List.append_assoc]
  exact hF.append_right [x]

theorem perm_drop_left (hx : a[i]? = some x) (hB : B.Perm (a.drop (i + 1) ++ b.drop j)) :
    (x :: B).Perm (a.drop i ++ b.drop j) := by
  rw [drop_eq_cons_of_getElem? hx, List.cons_append]
  exact hB.cons x

theorem perm_drop_right (hy : b[j]? = some x) (hB : B.Perm (a.drop i ++ b.drop (j + 1))) :
    (x :: B).Perm (a.drop i ++ b.drop j) := by
  rw [drop_eq_cons_of_getElem? hy]
  exact (hB.cons x).trans List.perm_middle.symm

/-- Where the ends meet, what they wrote together holds the entries of both halves. -/
theorem perm_of_meet (hF : F.Perm (a.take i ++ b.take j)) (hB : B.Perm (a.drop i ++ b.drop j)) :
    (F ++ B).Perm (a ++ b) := by
  have hswap : (b.take j ++ (a.drop i ++ b.drop j)).Perm (a.drop i ++ b) := by
    simpa only [List.take_append_drop] using
      List.perm_append_comm_assoc (b.take j) (a.drop i) (b.drop j)
  refine (hF.append hB).trans ?_
  rw [List.append_assoc]
  refine (hswap.append_left (a.take i)).trans ?_
  rw [← List.append_assoc, List.take_append_drop]

theorem frontKeeps_zero : FrontKeeps a b 0 0 a.length [] :=
  ⟨0, ⟨rfl, rfl, Nat.zero_le _, Nat.zero_le _⟩, by simp⟩

theorem backKeeps_zero : BackKeeps a b 0 a.length (a.length + b.length) [] :=
  ⟨b.length, ⟨rfl, rfl, Nat.le_refl _, Nat.le_refl _⟩, by simp⟩

/-- With any relation, a step at the front writes the entry it takes. -/
theorem FrontKeeps.step {k left right : Nat} {front : List α} {l r : α}
    (hf : FrontKeeps a b k left right front) (hk : k < a.length) (hab : a.length ≤ b.length)
    (hl : (a ++ b).toArray[left]? = some l) (hr : (a ++ b).toArray[right]? = some r) :
    FrontKeeps a b (k + 1) (if !before r l then left + 1 else left)
      (if !before r l then right else right + 1) ((if !before r l then l else r) :: front) := by
  obtain ⟨j, ⟨rfl, hcount, hleft, hj⟩, hperm⟩ := hf
  rw [getElem?_toArray_append_left (by omega)] at hl
  rw [getElem?_toArray_append_right] at hr
  cases before r l
  · refine ⟨j, ⟨by simp, by simp; omega, by simp; omega, hj⟩, ?_⟩
    simpa using perm_take_succ_left hl hperm
  · refine ⟨j + 1, ⟨by simp; omega, by simp; omega, by simpa using hleft, by omega⟩, ?_⟩
    simpa using perm_take_succ_right hr hperm

/-- With any relation, a step at the back writes the entry it takes. -/
theorem BackKeeps.step {k leftEnd rightEnd : Nat} {back : List α} {lb rb : α}
    (hback : BackKeeps a b k leftEnd rightEnd back) (hk : k < a.length)
    (hab : a.length ≤ b.length) (hlb : (a ++ b).toArray[leftEnd - 1]? = some lb)
    (hrb : (a ++ b).toArray[rightEnd - 1]? = some rb) :
    BackKeeps a b (k + 1) (if !before rb lb then leftEnd else leftEnd - 1)
      (if !before rb lb then rightEnd - 1 else rightEnd)
      ((if !before rb lb then rb else lb) :: back) := by
  obtain ⟨j, ⟨rfl, hcount, hle, hj⟩, hperm⟩ := hback
  obtain ⟨i, rfl⟩ : ∃ i, leftEnd = i + 1 := ⟨leftEnd - 1, by omega⟩
  obtain ⟨j', rfl⟩ : ∃ j', j = j' + 1 := ⟨j - 1, by omega⟩
  rw [Nat.add_sub_cancel, getElem?_toArray_append_left (by omega)] at hlb
  rw [show a.length + (j' + 1) - 1 = a.length + j' by omega, getElem?_toArray_append_right] at hrb
  cases before rb lb
  · refine ⟨j', ⟨by simp, by simp; omega, by simpa using hle, by omega⟩, ?_⟩
    simpa using perm_drop_right hrb hperm
  · refine ⟨j' + 1, ⟨by simp, by simp; omega, by simp; omega, hj⟩, ?_⟩
    simpa using perm_drop_left hlb hperm

theorem step_of_keeps {k : Nat} {s : TwoEnded α} (hk : k < a.length) (hab : a.length ≤ b.length)
    (hf : FrontKeeps a b k s.left s.right s.front)
    (hback : BackKeeps a b k s.leftEnd s.rightEnd s.back) :
    ∃ s', s.step before (a ++ b).toArray = some s' ∧
      FrontKeeps a b (k + 1) s'.left s'.right s'.front ∧
      BackKeeps a b (k + 1) s'.leftEnd s'.rightEnd s'.back := by
  obtain ⟨j, hpos, -⟩ := id hf
  obtain ⟨j', hpos', -⟩ := id hback
  obtain ⟨hz, ⟨l, hl⟩, ⟨r, hr⟩, ⟨lb, hlb⟩, ⟨rb, hrb⟩⟩ := reads_of_pos hk hab hpos hpos'
  exact ⟨_, step_eq_of_reads hz hl hr hlb hrb, hf.step hk hab hl hr, hback.step hk hab hlb hrb⟩

/-- With any relation, an output of the merge from both ends that passes its final check holds
the entries of the two halves. -/
theorem mergeTwoEnded_append_perm (hlen : a.length = (a.length + b.length) / 2) {ys : List α}
    (hys : mergeTwoEnded before (a ++ b).toArray = some ys) : ys.Perm (a ++ b) := by
  have hsize : (a ++ b).toArray.size = a.length + b.length := by simp
  have hab : a.length ≤ b.length := by omega
  obtain ⟨s, hfold, hf, hback⟩ := foldlM_step_of_invariant before
    (fun k s => FrontKeeps a b k s.left s.right s.front ∧
      BackKeeps a b k s.leftEnd s.rightEnd s.back)
    (a ++ b).toArray ⟨0, a.length, a.length, a.length + b.length, [], []⟩ a.length
    ⟨frontKeeps_zero, backKeeps_zero⟩ (fun k hk s hs => step_of_keeps hk hab hs.1 hs.2)
  obtain ⟨j, ⟨hright, hcount, hleft, hj⟩, hperm⟩ := hf
  obtain ⟨j', ⟨hrightEnd, hcount', hleftEnd, hj'⟩, hperm'⟩ := hback
  simp only [mergeTwoEnded, hsize, ← hlen, hfold, Option.bind_eq_bind, Option.bind_some,
    Option.pure_def] at hys
  by_cases hodd : (a.length + b.length) % 2 = 1
  · rcases Nat.lt_or_ge s.left s.leftEnd with hlt | hge
    · obtain ⟨x, hx⟩ : ∃ x, a[s.left]? = some x := ⟨a[s.left], List.getElem?_eq_getElem (by omega)⟩
      have hread : (a ++ b).toArray[s.left]? = some x := by
        rw [getElem?_toArray_append_left (by omega), hx]
      simp only [hodd, hlt, decide_true, if_true] at hys
      rw [hread, Option.bind_some] at hys
      obtain ⟨hmeet, rfl⟩ : (s.left + 1 = s.leftEnd ∧ s.right = s.rightEnd) ∧
          s.front.reverse ++ [x] ++ s.back = ys := by
        simpa using hys
      have hj'' : j' = j := by omega
      rw [← hmeet.1, hj''] at hperm'
      exact perm_of_meet (perm_take_succ_left hx hperm) hperm'
    · simp only [hodd, Nat.not_lt.mpr hge, decide_false, if_true, Bool.false_eq_true,
        if_false] at hys
      obtain ⟨y, hread, hmeet, rfl⟩ : ∃ y, (a ++ b).toArray[s.right]? = some y ∧
          (s.left = s.leftEnd ∧ s.right + 1 = s.rightEnd) ∧
          s.front.reverse ++ [y] ++ s.back = ys := by
        simpa [Option.bind_eq_some_iff] using hys
      rw [hright, getElem?_toArray_append_right] at hread
      have hj'' : j' = j + 1 := by omega
      rw [← hmeet.1, hj''] at hperm'
      exact perm_of_meet (perm_take_succ_right hread hperm) hperm'
  · simp only [hodd, if_false] at hys
    obtain ⟨hmeet, rfl⟩ : (s.left = s.leftEnd ∧ s.right = s.rightEnd) ∧
        s.front.reverse ++ s.back = ys := by
      simpa using hys
    have hj'' : j' = j := by omega
    rw [← hmeet.1, hj''] at hperm'
    exact perm_of_meet hperm hperm'

end Keeps

end Run

/-- With any relation, an output of the merge from both ends that passes its final check holds
the entries of its input. -/
theorem mergeTwoEnded_perm (before : α → α → Bool) (src : Array α) {ys : List α}
    (hys : mergeTwoEnded before src = some ys) : ys.Perm src.toList := by
  have hsplit :
      src = (src.toList.take (src.size / 2) ++ src.toList.drop (src.size / 2)).toArray := by
    simp
  rw [hsplit] at hys
  have hperm := mergeTwoEnded_append_perm (by simp; omega) hys
  rwa [List.take_append_drop] at hperm

end Introspect.Sorting
