import Introspect.Listing.Keys
import Introspect.Proofs.Sorting.Lex
import Introspect.Proofs.Sorting.Stable
import Introspect.Proofs.ValueOrder
import Mathlib.Data.List.Dedup

/-!
# Groups in position order

The position order of a listing is the sort order of its position cells. On cells where that
order is transitive (`Value.TransitiveOn`, for instance cells whose integers binary64 holds
exactly) it is a strict weak order (`Value.TransitiveOn.strictWeakOrder`), so sorting by position
is the stable sort and never fails (`sortByPosition_eq`).

Grouping a listing whose rows all have the group and position columns then gives, for each group
cell in order of first occurrence, the rows with that cell stably sorted by position
(`groupsByPosition_eq_ok_iff`); a listing with a row that lacks either column has no groups.
-/

set_option autoImplicit false
set_option relaxedAutoImplicit false

namespace Introspect

/-- The sort order of cells is transitive on `cells`: "not after" chains. -/
def Value.TransitiveOn (cells : List Value) : Prop :=
  ∀ a ∈ cells, ∀ b ∈ cells, ∀ c ∈ cells,
    a.compare b ≠ .gt → b.compare c ≠ .gt → a.compare c ≠ .gt

/-- The cell of a column, null when the row lacks it. -/
def Row.getD (r : Row) (column : String) : Value := (r.get? column).getD .null

namespace Value

theorem transitiveOn_of_exact {cells : List Value} (h : ∀ a ∈ cells, a.Exact) :
    TransitiveOn cells := by
  intro a ha b hb c hc hab hbc
  exact Ordering.ne_gt_iff_isLE.mpr (compare_isLE_trans (h a ha) (h b hb) (h c hc)
    (Ordering.ne_gt_iff_isLE.mp hab) (Ordering.ne_gt_iff_isLE.mp hbc))

theorem compare_ne_lt_iff {a b : Value} : a.compare b ≠ .lt ↔ b.compare a ≠ .gt := by
  rw [compare_swap a b, Ne, Ne, Ordering.swap_eq_gt]

/-- Where the sort order is transitive, "sorts before" is a strict weak order. Both order facts
come from transitivity of "not after", with swapping turning "not before" into "not after". -/
theorem TransitiveOn.strictWeakOrder {cells : List Value} (h : TransitiveOn cells) :
    Sorting.StrictWeakOrder (· ∈ cells) fun a b => a.compare b == .lt where
  irrefl a _ := by simp [compare_self]
  trans a b c ha hb hc hab hbc := by
    simp only [beq_iff_eq] at hab hbc ⊢
    by_contra hac
    have hcb := h c hc a ha b hb (compare_ne_lt_iff.mp hac) (by simp [hab])
    exact compare_ne_lt_iff.mpr hcb hbc
  cotrans a b c ha hb hc hac := by
    simp only [beq_iff_eq] at hac ⊢
    by_contra hne
    rw [not_or] at hne
    have hca := h c hc b hb a ha (compare_ne_lt_iff.mp hne.2) (compare_ne_lt_iff.mp hne.1)
    exact compare_ne_lt_iff.mpr hca hac

end Value

namespace Listing

open Sorting

/-- Rows in the order of their cells in a column. -/
def byColumn (column : String) (a b : Row) : Bool :=
  (a.getD column).compare (b.getD column) == .lt

/-- A sequence of reads succeeds exactly when each read does in turn. -/
@[simp] theorem Except.bind_eq_ok {ε α β : Type} {x : Except ε α} {f : α → Except ε β} {b : β} :
    x >>= f = .ok b ↔ ∃ a, x = .ok a ∧ f a = .ok b := by
  cases x <;> simp [bind, Except.bind]

@[simp] theorem Except.pure_eq_ok {ε α : Type} {a b : α} :
    (pure a : Except ε α) = .ok b ↔ a = b := by
  simp [pure, Except.pure]

@[simp] theorem Except.throw_ne_ok {ε α : Type} {e : ε} {a : α} :
    (throw e : Except ε α) ≠ .ok a := by
  simp [throw, throwThe, MonadExceptOf.throw]

/-- A list of reads succeeds exactly when each read does, when every read that succeeds gives
`F` of what it reads. -/
theorem mapM_eq_ok_iff {ε α β : Type} {f : α → Except ε β} {F : α → β}
    {l : List α} (hF : ∀ a ∈ l, ∀ b, f a = .ok b → b = F a) {ys : List β} :
    l.mapM f = .ok ys ↔ (∀ a ∈ l, f a = .ok (F a)) ∧ ys = l.map F := by
  induction l generalizing ys with
  | nil => simp [pure, Except.pure, eq_comm]
  | cons a l ih =>
    have ih' : ∀ bs, l.mapM f = .ok bs ↔ (∀ x ∈ l, f x = .ok (F x)) ∧ bs = l.map F :=
      fun bs => @ih (fun x hx => hF x (List.mem_cons_of_mem a hx)) bs
    simp only [List.mapM_cons, Except.bind_eq_ok, List.forall_mem_cons, List.map_cons]
    constructor
    · rintro ⟨b, hb, bs, hbs, hys⟩
      obtain rfl := hF a List.mem_cons_self b hb
      obtain ⟨hl, rfl⟩ := (ih' bs).mp hbs
      exact ⟨⟨hb, hl⟩, (Except.ok.inj hys).symm⟩
    · rintro ⟨⟨ha, hl⟩, rfl⟩
      exact ⟨F a, ha, l.map F, (ih' _).mpr ⟨hl, rfl⟩, rfl⟩

theorem liftRow_eq_ok {α : Type} {r : Except RowError α} {a : α} :
    liftRow r = .ok a ↔ r = .ok a := by
  cases r <;> simp [liftRow, Except.mapError]

section Position

variable {β : Type} {cells : List Value}

theorem positionBefore_strictWeakOrder (h : Value.TransitiveOn cells) :
    StrictWeakOrder (fun e : Value × β => e.1 ∈ cells) positionBefore :=
  h.strictWeakOrder.comap Prod.fst

/-- On positions where the order is transitive, sorting by position is the stable sort. -/
theorem sortByPosition_eq (p : Profile) (h : Value.TransitiveOn cells) {entries : List (Value × β)}
    (hentries : ∀ e ∈ entries, e.1 ∈ cells) :
    sortByPosition p entries = .ok ((sortSpec positionBefore entries).map Prod.snd) := by
  unfold sortByPosition
  rw [stableSort_eq_sortSpec p (positionBefore_strictWeakOrder h) hentries]

/-- Sorting rows paired with their cells is sorting the rows by that column. -/
theorem map_snd_sortSpec_positionBefore (column : String) (rows : List Row) :
    (sortSpec positionBefore (rows.map fun r => (r.getD column, r))).map Prod.snd =
      sortSpec (byColumn column) rows := by
  have hmap : (sortSpec (byColumn column) rows).map (fun r => (r.getD column, r)) =
      sortSpec positionBefore (rows.map fun r => (r.getD column, r)) :=
    sortSpec_map _ fun _ _ _ _ => rfl
  rw [← hmap, List.map_map]
  exact List.map_id _

end Position

section FirstSeen

variable {κ : Type} [DecidableEq κ]

theorem foldl_firstSeen (ks : List κ) : ∀ acc : List κ, acc.Nodup →
    let out := ks.foldl (fun acc k => if k ∈ acc then acc else acc ++ [k]) acc
    out.Nodup ∧ ∀ k, k ∈ out ↔ k ∈ acc ∨ k ∈ ks := by
  induction ks with
  | nil => intro acc hacc; simp [hacc]
  | cons k ks ih =>
    intro acc hacc
    by_cases hk : k ∈ acc
    · simp only [List.foldl_cons, if_pos hk]
      obtain ⟨hnodup, hmem⟩ := ih acc hacc
      refine ⟨hnodup, fun k' => ?_⟩
      rw [hmem, List.mem_cons]
      constructor
      · rintro (h | h)
        · exact Or.inl h
        · exact Or.inr (Or.inr h)
      · rintro (h | rfl | h)
        · exact Or.inl h
        · exact Or.inl hk
        · exact Or.inr h
    · simp only [List.foldl_cons, if_neg hk]
      have hacc' : (acc ++ [k]).Nodup := by
        refine List.nodup_append.mpr ⟨hacc, by simp, fun a ha b hb hab => ?_⟩
        rw [List.mem_singleton] at hb
        exact hk (hb ▸ hab ▸ ha)
      obtain ⟨hnodup, hmem⟩ := ih (acc ++ [k]) hacc'
      refine ⟨hnodup, fun k' => ?_⟩
      rw [hmem]
      simp only [List.mem_append, List.mem_cons]
      tauto

theorem nodup_firstSeen (ks : List κ) : (firstSeen ks).Nodup :=
  (foldl_firstSeen ks [] List.nodup_nil).1

@[simp] theorem mem_firstSeen {ks : List κ} {k : κ} : k ∈ firstSeen ks ↔ k ∈ ks := by
  unfold firstSeen
  simpa using (foldl_firstSeen ks [] List.nodup_nil).2 k

/-- The elements in order of first occurrence are the distinct elements, in another order. -/
theorem firstSeen_perm_dedup (ks : List κ) : (firstSeen ks).Perm ks.dedup :=
  (List.perm_ext_iff_of_nodup (nodup_firstSeen _) (List.nodup_dedup _)).mpr fun k => by
    rw [mem_firstSeen, List.mem_dedup]

/-- First occurrences commute with an injective map: the accumulators stay images of each other, and
`f` keeps membership in them. -/
theorem firstSeen_map {μ : Type} [DecidableEq μ] {f : κ → μ} (hf : Function.Injective f)
    (ks : List κ) : firstSeen (ks.map f) = (firstSeen ks).map f := by
  have hfold : ∀ acc : List κ,
      (ks.map f).foldl (fun acc k => if k ∈ acc then acc else acc ++ [k]) (acc.map f) =
        (ks.foldl (fun acc k => if k ∈ acc then acc else acc ++ [k]) acc).map f := by
    induction ks with
    | nil => intro acc; rfl
    | cons k ks ih =>
      intro acc
      have hmem : f k ∈ acc.map f ↔ k ∈ acc := List.mem_map_of_injective hf
      by_cases hk : k ∈ acc
      · simp only [List.map_cons, List.foldl_cons, if_pos hk, if_pos (hmem.mpr hk)]
        exact ih acc
      · simp only [List.map_cons, List.foldl_cons, if_neg hk, if_neg (mt hmem.mp hk)]
        rw [← ih (acc ++ [k]), List.map_append, List.map_singleton]
  exact hfold []

end FirstSeen

section Groups

variable {rows : List Row} {groupColumn positionColumn : String}

/-- Whether every row has the group and position columns. -/
def Keyed (rows : List Row) (groupColumn positionColumn : String) : Prop :=
  ∀ r ∈ rows, (r.get? groupColumn).isSome ∧ (r.get? positionColumn).isSome

theorem tagRows_eq_ok_iff {tagged : List (Value × Value × Row)} :
    tagRows rows groupColumn positionColumn = .ok tagged ↔
      Keyed rows groupColumn positionColumn ∧
        tagged = rows.map fun r => (r.getD groupColumn, r.getD positionColumn, r) := by
  unfold tagRows Keyed
  rw [mapM_eq_ok_iff]
  · refine and_congr_left fun _ => forall₂_congr fun r _ => ?_
    simp only [Row.require, Row.getD]
    split <;> split <;> simp_all [Except.bind_eq_ok]
  · intro r _ t ht
    simp only [Row.require, Row.getD] at ht ⊢
    split at ht <;> split at ht <;> simp_all [Except.bind_eq_ok]

/-- The rows of a group cell, stably sorted by position. -/
def groupOf (rows : List Row) (groupColumn positionColumn : String) (c : Value) : List Row :=
  sortSpec (byColumn positionColumn) (rows.filter (·.getD groupColumn == c))

theorem mem_groupOf {c : Value} {r : Row} :
    r ∈ groupOf rows groupColumn positionColumn c ↔ r ∈ rows ∧ r.getD groupColumn = c := by
  simp [groupOf, sortSpec, List.mem_mergeSort]

/-- A group cell that occurs has a row. -/
theorem groupOf_ne_nil {c : Value} (hc : c ∈ firstSeen (rows.map (·.getD groupColumn))) :
    groupOf rows groupColumn positionColumn c ≠ [] := by
  obtain ⟨r, hr, rfl⟩ := List.mem_map.mp (mem_firstSeen.mp hc)
  exact List.ne_nil_of_mem (mem_groupOf.mpr ⟨hr, rfl⟩)

/-- The cell of a column that a row has is among the cells of that column. -/
theorem getD_mem_filterMap {r : Row} {column : String} (hr : r ∈ rows)
    (hsome : (r.get? column).isSome) : r.getD column ∈ rows.filterMap (·.get? column) := by
  obtain ⟨v, hv⟩ := Option.isSome_iff_exists.mp hsome
  exact List.mem_filterMap.mpr ⟨r, hr, by simp [Row.getD, hv]⟩

variable {cells : List Value} (hcells : Value.TransitiveOn cells)
  (hpos : ∀ r ∈ rows, (r.get? positionColumn).isSome → r.getD positionColumn ∈ cells)
include hcells hpos

/-- Each group of a keyed listing sorts by position into `groupOf`. -/
theorem sortByPosition_group (hkeyed : Keyed rows groupColumn positionColumn) (c : Value) :
    sortByPosition narrowEntries
        (((rows.map fun r => (r.getD groupColumn, r.getD positionColumn, r)).filter
          (·.1 == c)).map (·.2)) =
      pure (groupOf rows groupColumn positionColumn c) := by
  have hentries : ((rows.map fun r => (r.getD groupColumn, r.getD positionColumn, r)).filter
      (·.1 == c)).map (·.2) =
        (rows.filter (·.getD groupColumn == c)).map fun r => (r.getD positionColumn, r) := by
    simp [List.filter_map, List.map_map, Function.comp_def]
  rw [hentries, sortByPosition_eq narrowEntries hcells, map_snd_sortSpec_positionBefore]
  · rfl
  · intro e he
    obtain ⟨r, hr, rfl⟩ := List.mem_map.mp he
    have hr := (List.mem_filter.mp hr).1
    exact hpos r hr (hkeyed r hr).2

/-- A listing whose rows all have the group and position columns, with positions on which the
order is transitive, groups into the rows of each group cell in position order, group cells in
order of first occurrence; one that lacks a column somewhere has no groups. -/
theorem groupsByPosition_eq_ok_iff {groups : List (Value × List Row)} :
    groupsByPosition rows groupColumn positionColumn = .ok groups ↔
      Keyed rows groupColumn positionColumn ∧
        groups = (firstSeen (rows.map (·.getD groupColumn))).map fun c =>
          (c, groupOf rows groupColumn positionColumn c) := by
  unfold groupsByPosition
  rw [Except.bind_eq_ok]
  constructor
  · rintro ⟨tagged, htagged, hgroups⟩
    obtain ⟨hkeyed, rfl⟩ := tagRows_eq_ok_iff.mp (liftRow_eq_ok.mp htagged)
    simp only [sortByPosition_group hcells hpos hkeyed, pure_bind, List.mapM_pure,
      List.map_map] at hgroups
    exact ⟨hkeyed, (Except.ok.inj hgroups).symm⟩
  · rintro ⟨hkeyed, rfl⟩
    refine ⟨_, liftRow_eq_ok.mpr (tagRows_eq_ok_iff.mpr ⟨hkeyed, rfl⟩), ?_⟩
    simp only [sortByPosition_group hcells hpos hkeyed, pure_bind, List.mapM_pure, List.map_map]
    rfl

end Groups

end Listing

end Introspect
