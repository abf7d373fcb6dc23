import Introspect.Sorting.Insertion

/-!
# Stable sorting: what it is

A stable sort by a strict order `before` puts no entry after one that sorts before it, and keeps
in their input order the entries that do not sort apart. `SortsTo P before xs ys` says so of an
output `ys` without naming an algorithm: `ys` is a permutation of `xs`, it is `Sorted`, and for
every class of ties (`tie`) the entries of the class come in `ys` as in `xs`. The classes are
those of the values satisfying `P`, on which the order is meant to be a strict weak order
(`StrictWeakOrder`); cell order is one on cells whose integers binary64 holds exactly, and on no
larger set.

Two outputs that both sort `xs` are equal as soon as `before` is irreflexive on its entries
(`SortsTo.eq`), and the library's merge sort by "not after" sorts `xs` when `before` is a strict
weak order on its entries (`sortsTo_sortSpec`). So every algorithm that is shown to sort its input
in this sense computes `sortSpec` (`SortsTo.eq_sortSpec`).
-/

set_option autoImplicit false
set_option relaxedAutoImplicit false

namespace Introspect.Sorting

variable {α : Type}

/-- `before` is a strict weak order on the values satisfying `P`: irreflexive, transitive, and
whenever `a` sorts before `c`, any `b` sorts after `a` or before `c`. -/
structure StrictWeakOrder (P : α → Prop) (before : α → α → Bool) : Prop where
  irrefl : ∀ a, P a → before a a = false
  trans : ∀ a b c, P a → P b → P c → before a b = true → before b c = true → before a c = true
  cotrans : ∀ a b c, P a → P b → P c → before a c = true → before a b = true ∨ before b c = true

/-- No entry sorts before an entry that it follows. -/
def Sorted (before : α → α → Bool) (xs : List α) : Prop :=
  xs.Pairwise fun a b => before b a = false

/-- Whether `x` and `c` do not sort apart. -/
def tie (before : α → α → Bool) (c x : α) : Bool := !before x c && !before c x

/-- `ys` is `xs` sorted stably: a sorted permutation of `xs` that keeps the order of the entries
of every class of ties among the values satisfying `P`. -/
structure SortsTo (P : α → Prop) (before : α → α → Bool) (xs ys : List α) : Prop where
  perm : ys.Perm xs
  sorted : Sorted before ys
  stable : ∀ c, P c → ys.filter (tie before c) = xs.filter (tie before c)

/-- The stable sort: the library's merge sort by the order "not after". -/
def sortSpec (before : α → α → Bool) (xs : List α) : List α :=
  xs.mergeSort fun a b => !before b a

theorem tie_eq_true {before : α → α → Bool} {c x : α} :
    tie before c x = true ↔ before x c = false ∧ before c x = false := by
  simp [tie]

namespace StrictWeakOrder

variable {P : α → Prop} {before : α → α → Bool} (h : StrictWeakOrder P before)
variable {a b c : α}
include h

theorem asymm (ha : P a) (hb : P b) (hab : before a b = true) : before b a = false := by
  cases hba : before b a
  · rfl
  · have := h.trans a b a ha hb ha hab hba
    rw [h.irrefl a ha] at this
    exact absurd this Bool.false_ne_true

/-- "Not after" is transitive. -/
theorem not_before_trans (ha : P a) (hb : P b) (hc : P c) (hba : before b a = false)
    (hcb : before c b = false) : before c a = false := by
  cases hca : before c a
  · rfl
  · rcases h.cotrans c b a hc hb ha hca with hcb' | hba' <;> simp_all

theorem before_of_before_of_not_before (ha : P a) (hb : P b) (hc : P c)
    (hab : before a b = true) (hcb : before c b = false) : before a c = true := by
  rcases h.cotrans a c b ha hc hb hab with hac | hcb' <;> simp_all

theorem before_of_not_before_of_before (ha : P a) (hb : P b) (hc : P c)
    (hba : before b a = false) (hbc : before b c = true) : before a c = true := by
  rcases h.cotrans b a c hb ha hc hbc with hba' | hac <;> simp_all

omit h in
theorem tie_symm : tie before a b = tie before b a := by
  simp only [tie, Bool.and_comm]

theorem tie_trans (ha : P a) (hb : P b) (hc : P c) (hab : tie before a b = true)
    (hbc : tie before b c = true) : tie before a c = true := by
  rw [tie_eq_true] at hab hbc ⊢
  exact ⟨h.not_before_trans ha hb hc hab.1 hbc.1, h.not_before_trans hc hb ha hbc.2 hab.2⟩

/-- The opposite order is a strict weak order on the same values. -/
theorem flip : StrictWeakOrder P fun x y => before y x where
  irrefl x hx := h.irrefl x hx
  trans x y z hx hy hz hxy hyz := h.trans z y x hz hy hx hyz hxy
  cotrans x y z hx hy hz hxz := (h.cotrans z y x hz hy hx hxz).symm

/-- On the values satisfying `P`, "not after" is transitive, as the library's merge lemmas ask. -/
theorem notAfter_trans (x y z : {v // P v}) (hxy : (!before y.1 x.1) = true)
    (hyz : (!before z.1 y.1) = true) : (!before z.1 x.1) = true := by
  simp only [Bool.not_eq_eq_eq_not, Bool.not_true] at hxy hyz ⊢
  exact h.not_before_trans x.2 y.2 z.2 hxy hyz

/-- On the values satisfying `P`, "not after" is total. -/
theorem notAfter_total (x y : {v // P v}) : ((!before y.1 x.1) || (!before x.1 y.1)) = true := by
  cases hyx : before y.1 x.1
  · simp
  · simp [h.asymm y.2 x.2 hyx]

omit h in
theorem tie_flip : tie (fun x y => before y x) a = tie before a := by
  funext x
  simp only [tie, Bool.and_comm]

end StrictWeakOrder

/-! ### One sorted output -/

section Unique

variable {before : α → α → Bool}

/-- Sorted permutations of each other whose classes of ties agree are equal, for an order that
is irreflexive on their entries: the first entry of each is not after the other's first entry,
so the two tie, and the class of the first entry starts with each of them. -/
theorem eq_of_sorted_of_ties {ys zs : List α} (hirr : ∀ a ∈ ys, before a a = false)
    (hp : ys.Perm zs) (hys : Sorted before ys) (hzs : Sorted before zs)
    (hties : ∀ c ∈ ys, ys.filter (tie before c) = zs.filter (tie before c)) : ys = zs := by
  induction ys generalizing zs with
  | nil => exact hp.nil_eq
  | cons y ys ih =>
    cases zs with
    | nil => exact absurd hp.eq_nil (List.cons_ne_nil y ys)
    | cons z zs =>
      have hyy : before y y = false := hirr y List.mem_cons_self
      have hzy : before z y = false := by
        rcases List.mem_cons.mp (hp.symm.subset List.mem_cons_self) with rfl | hz
        · exact hyy
        · exact List.rel_of_pairwise_cons hys hz
      have hyz : before y z = false := by
        rcases List.mem_cons.mp (hp.subset List.mem_cons_self) with rfl | hy
        · exact hyy
        · exact List.rel_of_pairwise_cons hzs hy
      have hhead : y = z := by
        have := hties y List.mem_cons_self
        simp only [List.filter_cons, tie, hyy, hzy, hyz, Bool.not_false, Bool.and_self,
          if_true, List.cons.injEq] at this
        exact this.1
      subst hhead
      congr 1
      refine ih (fun a ha => hirr a (List.mem_cons_of_mem _ ha)) hp.cons_inv hys.of_cons
        hzs.of_cons fun c hc => ?_
      have := hties c (List.mem_cons_of_mem _ hc)
      simp only [List.filter_cons] at this
      split at this
      · exact List.cons.inj this |>.2
      · exact this

variable {P : α → Prop} {xs ys zs : List α}

/-- A stable sort has one output. -/
theorem SortsTo.eq (hP : ∀ x ∈ xs, P x) (hirr : ∀ x ∈ xs, before x x = false)
    (hy : SortsTo P before xs ys) (hz : SortsTo P before xs zs) : ys = zs :=
  eq_of_sorted_of_ties (fun a ha => hirr a (hy.perm.subset ha)) (hy.perm.trans hz.perm.symm)
    hy.sorted hz.sorted fun c hc =>
      have hc' := hP c (hy.perm.subset hc)
      (hy.stable c hc').trans (hz.stable c hc').symm

end Unique

section Spec

variable {P : α → Prop} {before : α → α → Bool} {xs : List α}

/-- Merge sort by "not after" sorts stably. On the values satisfying `P` that order is total and
transitive, which the library's lemmas on merge sort ask for everywhere; its results are carried
back through `Subtype.val`. -/
theorem sortsTo_sortSpec (h : StrictWeakOrder P before) (hxs : ∀ x ∈ xs, P x) :
    SortsTo P before xs (sortSpec before xs) := by
  let le : {a // P a} → {a // P a} → Bool := fun a b => !before b.1 a.1
  have htrans : ∀ a b c : {a // P a}, le a b → le b c → le a c := h.notAfter_trans
  have htotal : ∀ a b : {a // P a}, (le a b || le b a) = true := h.notAfter_total
  have hmap : sortSpec before xs = ((xs.attachWith P hxs).mergeSort le).map Subtype.val := by
    have hm : ((xs.attachWith P hxs).mergeSort le).map Subtype.val =
        ((xs.attachWith P hxs).map Subtype.val).mergeSort (fun a b => !before b a) :=
      List.map_mergeSort fun _ _ _ _ => rfl
    rw [hm, List.attachWith_map_subtype_val]
    rfl
  refine ⟨List.mergeSort_perm _ _, ?_, fun c hc => ?_⟩
  · rw [hmap, Sorted, List.pairwise_map]
    refine (List.pairwise_mergeSort htrans htotal _).imp fun hab => ?_
    simpa [le] using hab
  · let q : α → Bool := tie before c
    let cls := (xs.attachWith P hxs).filter fun a => q a.1
    have hcls : cls.Pairwise fun a b => le a b = true := by
      refine List.Pairwise.imp_of_mem ?_ (List.pairwise_of_forall fun _ _ => trivial)
      intro a b ha hb _
      have hqa := tie_eq_true.mp (List.mem_filter.mp ha).2
      have hqb := tie_eq_true.mp (List.mem_filter.mp hb).2
      cases hba : before b.1 a.1
      · simp [le, hba]
      · rcases h.cotrans _ _ _ b.2 hc a.2 hba with hbc | hca <;> simp_all
    have hsub : (cls.map Subtype.val).Sublist (sortSpec before xs) := by
      rw [hmap]
      exact (List.sublist_mergeSort htrans htotal hcls (List.filter_sublist)).map _
    have hval : cls.map Subtype.val = xs.filter q := by
      show ((xs.attachWith P hxs).filter (q ∘ Subtype.val)).map Subtype.val = _
      rw [← List.filter_map, List.attachWith_map_subtype_val]
    rw [hval] at hsub
    have hlen : (xs.filter q).length = ((sortSpec before xs).filter q).length :=
      ((List.mergeSort_perm _ _).filter q).length_eq.symm
    have := (by simpa using hsub.filter q : (xs.filter q).Sublist ((sortSpec before xs).filter q))
    exact (this.eq_of_length hlen).symm

/-- Every stable sort of entries ordered by a strict weak order computes `sortSpec`. -/
theorem SortsTo.eq_sortSpec (h : StrictWeakOrder P before) (hxs : ∀ x ∈ xs, P x)
    {ys : List α} (hy : SortsTo P before xs ys) : ys = sortSpec before xs :=
  hy.eq hxs (fun x hx => h.irrefl x (hxs x hx)) (sortsTo_sortSpec h hxs)

end Spec

/-- Sorting commutes with a map that carries one order onto the other. -/
theorem sortSpec_map {β : Type} {before : α → α → Bool} {before' : β → β → Bool} (f : α → β)
    {xs : List α} (hf : ∀ a ∈ xs, ∀ b ∈ xs, before a b = before' (f a) (f b)) :
    (sortSpec before xs).map f = sortSpec before' (xs.map f) :=
  List.map_mergeSort fun a ha b hb => by rw [hf b hb a ha]

/-- The stable sort only reads the order between entries of the list. -/
theorem sortSpec_congr {before before' : α → α → Bool} {xs : List α}
    (hf : ∀ a ∈ xs, ∀ b ∈ xs, before a b = before' a b) :
    sortSpec before xs = sortSpec before' xs := by
  simpa using sortSpec_map id hf

/-! ### Building sorted outputs -/

section Build

variable {P : α → Prop} {before : α → α → Bool} (h : StrictWeakOrder P before)
variable {xs ys ls rs zs : List α}

theorem sortsTo_of_sorted (hs : Sorted before xs) : SortsTo P before xs xs :=
  ⟨List.Perm.refl _, hs, fun _ _ => rfl⟩

include h

/-- Two sides of a split in which every entry of the first sorts before every entry of the
second, each sorted, sort the whole: a class of ties never meets both sides. -/
theorem sortsTo_filter_append (p : α → Bool) (hxs : ∀ x ∈ xs, P x)
    (hsplit : ∀ a ∈ xs, ∀ b ∈ xs, p a = true → p b = false → before a b = true)
    (hl : SortsTo P before (xs.filter p) ls) (hr : SortsTo P before (xs.filter (!p ·)) rs) :
    SortsTo P before xs (ls ++ rs) := by
  refine ⟨(hl.perm.append hr.perm).trans (List.filter_append_perm p xs), ?_, fun c hc => ?_⟩
  · refine List.pairwise_append.mpr ⟨hl.sorted, hr.sorted, fun a ha b hb => ?_⟩
    obtain ⟨hax, hpa⟩ := List.mem_filter.mp (hl.perm.subset ha)
    obtain ⟨hbx, hpb⟩ := List.mem_filter.mp (hr.perm.subset hb)
    exact h.asymm (hxs a hax) (hxs b hbx) (hsplit a hax b hbx hpa (by simpa using hpb))
  · rw [List.filter_append, hl.stable c hc, hr.stable c hc, List.filter_filter, List.filter_filter]
    by_cases hside : ∃ x ∈ xs, tie before c x = true ∧ p x = true
    · obtain ⟨x, hx, hcx, hpx⟩ := hside
      have hall : ∀ y ∈ xs, tie before c y = true → p y = true := by
        intro y hy hcy
        cases hpy : p y
        · have hxy := h.tie_trans (hxs x hx) hc (hxs y hy)
            (by rw [StrictWeakOrder.tie_symm]; exact hcx) hcy
          rw [tie_eq_true] at hxy
          have := hsplit x hx y hy hpx hpy
          simp_all
        · rfl
      have hright : xs.filter (fun a => tie before c a && !p a) = [] :=
        List.filter_eq_nil_iff.mpr fun y hy hyc => by
          simp only [Bool.and_eq_true, Bool.not_eq_eq_eq_not, Bool.not_true] at hyc
          simp_all [hall y hy hyc.1]
      have hleft : xs.filter (fun a => tie before c a && p a) = xs.filter (tie before c) :=
        List.filter_congr fun y hy => by
          cases hcy : tie before c y
          · simp
          · simp [hall y hy hcy]
      rw [hleft, hright, List.append_nil]
    · have hnone : ∀ y ∈ xs, tie before c y = true → p y = false := by
        intro y hy hcy
        cases hpy : p y
        · rfl
        · exact absurd ⟨y, hy, hcy, hpy⟩ hside
      have hleft : xs.filter (fun a => tie before c a && p a) = [] :=
        List.filter_eq_nil_iff.mpr fun y hy hyc => by
          simp only [Bool.and_eq_true] at hyc
          simp_all [hnone y hy hyc.1]
      have hright : xs.filter (fun a => tie before c a && !p a) = xs.filter (tie before c) :=
        List.filter_congr fun y hy => by
          cases hcy : tie before c y
          · simp
          · simp [hnone y hy hcy]
      rw [hleft, hright, List.nil_append]

/-- The stable sort of a list whose first side sorts before its second is the stable sort of each
side, one after the other. -/
theorem sortSpec_filter_append (p : α → Bool) (hxs : ∀ x ∈ xs, P x)
    (hsplit : ∀ a ∈ xs, ∀ b ∈ xs, p a = true → p b = false → before a b = true) :
    sortSpec before xs = sortSpec before (xs.filter p) ++ sortSpec before (xs.filter (!p ·)) := by
  have hl : ∀ x ∈ xs.filter p, P x := fun x hx => hxs x (List.mem_filter.mp hx).1
  have hr : ∀ x ∈ xs.filter (!p ·), P x := fun x hx => hxs x (List.mem_filter.mp hx).1
  have hs := sortsTo_filter_append h p hxs hsplit (sortsTo_sortSpec h hl) (sortsTo_sortSpec h hr)
  exact (hs.eq_sortSpec h hxs).symm

/-- The class of `c` in a stable merge of sorted lists: first its entries from the left, then
those from the right. An entry of the right list taken first sorts before the whole left list,
so when it ties with `c` nothing of the left list does. -/
theorem filter_tie_merge (hls : Sorted before ls) (hrs : Sorted before rs)
    (hlP : ∀ x ∈ ls, P x) (hrP : ∀ x ∈ rs, P x) {c : α} (hc : P c) :
    (ls.merge rs fun a b => !before b a).filter (tie before c) =
      ls.filter (tie before c) ++ rs.filter (tie before c) := by
  induction ls generalizing rs with
  | nil => simp
  | cons x ls ih =>
    induction rs with
    | nil => simp
    | cons y rs ihr =>
      have hx := hlP x List.mem_cons_self
      have hy := hrP y List.mem_cons_self
      rw [List.cons_merge_cons]
      cases hyx : before y x
      · simp only [Bool.not_false, if_true, List.filter_cons]
        rw [ih hls.of_cons hrs (fun z hz => hlP z (List.mem_cons_of_mem _ hz)) hrP]
        split <;> simp [List.filter_cons]
      · simp only [Bool.not_true, Bool.false_eq_true, if_false, List.filter_cons (x := y)]
        rw [ihr hrs.of_cons (fun z hz => hrP z (List.mem_cons_of_mem _ hz))]
        cases hcy : tie before c y
        · simp
        · have hleft : (x :: ls).filter (tie before c) = [] := by
            refine List.filter_eq_nil_iff.mpr fun z hz hcz => ?_
            have hyz : before y z = true := by
              rcases List.mem_cons.mp hz with rfl | hz
              · exact hyx
              · exact h.before_of_before_of_not_before hy hx (hlP z (List.mem_cons_of_mem _ hz))
                  hyx (List.rel_of_pairwise_cons hls hz)
            have hcz' := tie_eq_true.mp hcz
            have hcy' := tie_eq_true.mp hcy
            rcases h.cotrans y c z hy hc (hlP z hz) hyz with h1 | h1 <;> simp_all
          rw [hleft]
          simp

/-- The stable merge of sorted lists is sorted; "not after" is transitive and total on the
values satisfying `P`, and the library's lemma is carried back from the subtype. -/
theorem sorted_merge (hls : Sorted before ls) (hrs : Sorted before rs)
    (hlP : ∀ x ∈ ls, P x) (hrP : ∀ x ∈ rs, P x) :
    Sorted before (ls.merge rs fun a b => !before b a) := by
  let le : {a // P a} → {a // P a} → Bool := fun a b => !before b.1 a.1
  have hmap : ((ls.attachWith P hlP).merge (rs.attachWith P hrP) le).map Subtype.val =
      ((ls.attachWith P hlP).map Subtype.val).merge ((rs.attachWith P hrP).map Subtype.val)
        (fun a b => !before b a) :=
    List.map_merge fun _ _ _ _ => rfl
  rw [List.attachWith_map_subtype_val, List.attachWith_map_subtype_val] at hmap
  rw [Sorted, ← hmap, List.pairwise_map]
  have hsorted := fun (zs : List α) (hzP : ∀ x ∈ zs, P x) (hzs : Sorted before zs) =>
    (show (zs.attachWith P hzP).Pairwise fun a b => le a b = true by
      rw [Sorted, ← List.attachWith_map_subtype_val hzP, List.pairwise_map] at hzs
      exact hzs.imp fun hab => by simpa [le] using hab)
  refine (List.pairwise_merge h.notAfter_trans h.notAfter_total _ _ (hsorted ls hlP hls)
    (hsorted rs hrP hrs)).imp fun hab => ?_
  simpa [le] using hab

/-- Merging stable sorts of two lists stably sorts their concatenation. -/
theorem sortsTo_merge (hxs : ∀ x ∈ xs, P x) (hys : ∀ x ∈ ys, P x)
    (hl : SortsTo P before xs ls) (hr : SortsTo P before ys rs) :
    SortsTo P before (xs ++ ys) (ls.merge rs fun a b => !before b a) := by
  have hlP : ∀ x ∈ ls, P x := fun x hx => hxs x (hl.perm.subset hx)
  have hrP : ∀ x ∈ rs, P x := fun x hx => hys x (hr.perm.subset hx)
  refine ⟨(List.merge_perm_append _).trans (hl.perm.append hr.perm),
    sorted_merge h hl.sorted hr.sorted hlP hrP, fun c hc => ?_⟩
  rw [filter_tie_merge h hl.sorted hr.sorted hlP hrP hc, hl.stable c hc, hr.stable c hc,
    List.filter_append]

omit h in
/-- A stable sort by the opposite order, read backwards, is a stable sort of the list read
backwards. -/
theorem SortsTo.reverse_of_flip (hs : SortsTo P (fun a b => before b a) xs.reverse ys) :
    SortsTo P before xs ys.reverse := by
  refine ⟨(List.reverse_perm ys).trans (hs.perm.trans (List.reverse_perm xs)), ?_, fun c hc => ?_⟩
  · rw [Sorted, List.pairwise_reverse]
    exact hs.sorted
  · have := hs.stable c hc
    simp only [StrictWeakOrder.tie_flip] at this
    rw [List.filter_reverse, this, List.filter_reverse, List.reverse_reverse]

end Build

end Introspect.Sorting
