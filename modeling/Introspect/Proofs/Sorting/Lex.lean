import Introspect.Proofs.Sorting.Spec
import Mathlib

/-!
# Sorting by a key first

`lexBefore key before` sorts by a key in a linear order, and the entries of one key by `before`.
It is a strict weak order wherever `before` is one (`StrictWeakOrder.lex`), and its stable sort
is the stable sort by `before` of the entries of each key, keys in ascending order
(`sortSpec_lex`): sorting by the key first groups the entries by key.
-/

set_option autoImplicit false
set_option relaxedAutoImplicit false

namespace Introspect.Sorting

variable {α : Type}

/-- Sorting by `key`, then by `before` among the entries of one key. -/
def lexBefore {κ : Type} [LinearOrder κ] (key : α → κ) (before : α → α → Bool) (a b : α) : Bool :=
  decide (key a < key b) || (decide (key a = key b) && before a b)

/-- An order read through a map is a strict weak order on what the map sends into its domain. -/
theorem StrictWeakOrder.comap {β : Type} {P : β → Prop} {before : β → β → Bool}
    (h : StrictWeakOrder P before) (f : α → β) :
    StrictWeakOrder (fun a => P (f a)) fun a b => before (f a) (f b) where
  irrefl a ha := h.irrefl (f a) ha
  trans a b c ha hb hc := h.trans (f a) (f b) (f c) ha hb hc
  cotrans a b c ha hb hc := h.cotrans (f a) (f b) (f c) ha hb hc

section Lex

variable {κ : Type} [LinearOrder κ]

/-- The strict order of a linear order is a strict weak order. -/
theorem strictWeakOrder_lt : StrictWeakOrder (fun _ : κ => True) fun a b => decide (a < b) where
  irrefl a _ := by simp
  trans a b c _ _ _ hab hbc := by
    simp only [decide_eq_true_eq] at hab hbc ⊢
    exact lt_trans hab hbc
  cotrans a b c _ _ _ hac := by
    simp only [decide_eq_true_eq] at hac ⊢
    rcases lt_or_ge a b with hab | hba
    · exact Or.inl hab
    · exact Or.inr (lt_of_le_of_lt hba hac)

/-- Sorting distinct keys puts them in strictly ascending order. -/
theorem pairwise_lt_sortSpec {ks : List κ} (hks : ks.Nodup) :
    (sortSpec (fun a b => decide (a < b)) ks).Pairwise (· < ·) := by
  have hs : SortsTo (fun _ => True) (fun a b => decide (a < b)) ks
      (sortSpec (fun a b => decide (a < b)) ks) :=
    sortsTo_sortSpec strictWeakOrder_lt fun _ _ => trivial
  have hnodup : (sortSpec (fun a b => decide (a < b)) ks).Nodup := hs.perm.nodup_iff.mpr hks
  refine (hs.sorted.and hnodup).imp fun ⟨hba, hne⟩ => lt_of_le_of_ne ?_ hne
  simpa using hba

variable {P : α → Prop} {before : α → α → Bool} (key : α → κ)

theorem lexBefore_eq_true {a b : α} :
    lexBefore key before a b = true ↔ key a < key b ∨ key a = key b ∧ before a b = true := by
  simp [lexBefore]

/-- Ordering by a key first and by `before` within a key is again a strict weak order. -/
theorem StrictWeakOrder.lex (h : StrictWeakOrder P before) :
    StrictWeakOrder P (lexBefore key before) where
  irrefl a ha := by simp [lexBefore, h.irrefl a ha]
  trans a b c ha hb hc hab hbc := by
    rw [lexBefore_eq_true] at hab hbc ⊢
    rcases hab with hab | ⟨hab, hab'⟩ <;> rcases hbc with hbc | ⟨hbc, hbc'⟩
    · exact Or.inl (lt_trans hab hbc)
    · exact Or.inl (lt_of_lt_of_eq hab hbc)
    · exact Or.inl (lt_of_eq_of_lt hab hbc)
    · exact Or.inr ⟨hab.trans hbc, h.trans a b c ha hb hc hab' hbc'⟩
  cotrans a b c ha hb hc hac := by
    rw [lexBefore_eq_true, lexBefore_eq_true]
    rw [lexBefore_eq_true] at hac
    rcases hac with hac | ⟨hac, hac'⟩
    · rcases lt_or_ge (key a) (key b) with hab | hba
      · exact Or.inl (Or.inl hab)
      · exact Or.inr (Or.inl (lt_of_le_of_lt hba hac))
    · rcases lt_trichotomy (key a) (key b) with hab | hab | hba
      · exact Or.inl (Or.inl hab)
      · rcases h.cotrans a b c ha hb hc hac' with hab' | hbc
        · exact Or.inl (Or.inr ⟨hab, hab'⟩)
        · exact Or.inr (Or.inr ⟨hab.symm.trans hac, hbc⟩)
      · exact Or.inr (Or.inl (lt_of_lt_of_eq hba hac))

/-- Sorting by the key first sorts the entries of each key by `before`, keys in ascending order;
`ks` is any ascending list that holds the key of every entry. The induction is on `ks`: the
entries of its least key sort before all the others. -/
theorem sortSpec_lex (h : StrictWeakOrder P before) :
    ∀ ks : List κ, ks.Pairwise (· < ·) → ∀ xs : List α, (∀ x ∈ xs, P x) →
      (∀ x ∈ xs, key x ∈ ks) →
      sortSpec (lexBefore key before) xs =
        (ks.map fun k => sortSpec before (xs.filter (key · = k))).flatten := by
  intro ks
  induction ks with
  | nil =>
    intro _ xs _ hkeys
    have hnil : xs = [] := List.eq_nil_iff_forall_not_mem.mpr fun x hx => by simpa using hkeys x hx
    subst hnil
    simp [sortSpec]
  | cons k ks ih =>
    intro hks xs hxs hkeys
    obtain ⟨hk, hks⟩ := List.pairwise_cons.mp hks
    have hsplit : ∀ a ∈ xs, ∀ b ∈ xs, decide (key a = k) = true → decide (key b = k) = false →
        lexBefore key before a b = true := by
      intro a _ b hb ha hb'
      have hbk : key b ∈ ks := by simpa [of_decide_eq_false hb'] using hkeys b hb
      rw [lexBefore_eq_true, of_decide_eq_true ha]
      exact Or.inl (hk _ hbk)
    have hleast : sortSpec (lexBefore key before) (xs.filter (key · = k)) =
        sortSpec before (xs.filter (key · = k)) := by
      refine sortSpec_congr fun a ha b hb => ?_
      have ha' : key a = k := by simpa using (List.mem_filter.mp ha).2
      have hb' : key b = k := by simpa using (List.mem_filter.mp hb).2
      simp only [lexBefore, ha', hb', lt_irrefl, decide_false, Bool.false_or, decide_true,
        Bool.true_and]
    have hrest := ih hks (xs.filter fun x => !decide (key x = k))
      (fun x hx => hxs x (List.mem_filter.mp hx).1)
      (fun x hx => by
        obtain ⟨hx, hxk⟩ := List.mem_filter.mp hx
        have hxk : key x ≠ k := by simpa using hxk
        simpa [hxk] using hkeys x hx)
    have hfilter : ∀ k' ∈ ks, (xs.filter fun x => !decide (key x = k)).filter (key · = k') =
        xs.filter (key · = k') := by
      intro k' hk'
      rw [List.filter_filter]
      refine List.filter_congr fun x _ => ?_
      by_cases hx : key x = k'
      · have hk'k : k' ≠ k := (ne_of_lt (hk k' hk')).symm
        simp [hx, hk'k]
      · simp [hx]
    rw [sortSpec_filter_append (h.lex key) (key · = k) hxs hsplit, hleast, hrest,
      List.map_congr_left fun k' hk' => by rw [hfilter k' hk'], List.map_cons, List.flatten_cons]

end Lex

end Introspect.Sorting
