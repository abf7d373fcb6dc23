import Introspect.Proofs.Listing.Keyed
import Mathlib

/-!
# Property trees

A property tree files the rows of a describe-style listing under their parent cell, and within
a parent under their property cell. The parents come in order of first occurrence, and so do the
properties of each parent; a later row of the same parent and property replaces the earlier one
in its place.

Under each parent the tree holds what `keyedRows` makes of that parent's rows alone: its rows
keyed by property (`propertyBucket_eq_keyAll`, `keyedRows_filter`). Filing rows two levels deep is
keying each parent's rows by property. The tree is built when no row lacks the parent or the property column, and
otherwise the first row that lacks one is the error (`propertyTree_spec`). A lookup by parent and
property then finds the last row with both cells (`get?_propertyBucket`), and the tree has one
entry for each distinct pair of cells (`sum_size_propertyBucket`).
-/

set_option autoImplicit false
set_option relaxedAutoImplicit false

namespace Introspect.Listing

/-- Each pair once, grouped by first component: the first components in order of first
occurrence, each with its second components in order of first occurrence. There are as many as
there are distinct pairs. -/
theorem length_firstSeen_pairs {κ μ : Type} [DecidableEq κ] [DecidableEq μ] (l : List (κ × μ)) :
    (firstSeen l).length = ((firstSeen (l.map Prod.fst)).map fun p =>
      (firstSeen ((l.filter (·.1 == p)).map Prod.snd)).length).sum := by
  let byFirst : κ → List (κ × μ) := fun p => (firstSeen ((l.filter (·.1 == p)).map Prod.snd)).map (p, ·)
  have hfirst : ∀ p, ∀ x ∈ byFirst p, x.1 = p := by
    intro p x hx
    obtain ⟨q, _, rfl⟩ := List.mem_map.mp hx
    rfl
  have hnodup : ((firstSeen (l.map Prod.fst)).flatMap byFirst).Nodup := by
    refine List.nodup_flatMap.mpr ⟨fun p _ => (nodup_firstSeen _).map (Prod.mk_right_injective p), ?_⟩
    refine (nodup_firstSeen _).imp fun hne => ?_
    exact List.disjoint_left.mpr fun x hx hx' => hne ((hfirst _ x hx).symm.trans (hfirst _ x hx'))
  have hperm : (firstSeen l).Perm ((firstSeen (l.map Prod.fst)).flatMap byFirst) := by
    refine (List.perm_ext_iff_of_nodup (nodup_firstSeen l) hnodup).mpr fun x => ?_
    obtain ⟨p, q⟩ := x
    simp only [byFirst, mem_firstSeen, List.mem_flatMap, List.mem_map, List.mem_filter,
      beq_iff_eq, Prod.mk.injEq]
    constructor
    · intro hx
      exact ⟨p, ⟨(p, q), hx, rfl⟩, q, ⟨(p, q), ⟨hx, rfl⟩, rfl⟩, rfl, rfl⟩
    · rintro ⟨p', -, q', ⟨x, ⟨hx, hxp⟩, rfl⟩, rfl, rfl⟩
      rw [← hxp]
      exact hx
  rw [hperm.length_eq, List.length_flatMap]
  simp [byFirst]

variable {rows : List Row} {pc kc : String}

/-- The rows of one parent cell by their property cell, in order of first occurrence, the last
row of each property kept. -/
def propertyBucket (rows : List Row) (pc kc : String) (p : Value) : OrderedMap Value Row :=
  OrderedMap.ofList ((rows.filter (·.getD pc == p)).map fun r => (r.getD kc, r))

/-- A parent's bucket is its rows keyed by the property column. -/
theorem propertyBucket_eq_keyAll (p : Value) :
    propertyBucket rows pc kc p = keyAll (rows.filter (·.getD pc == p)) kc :=
  rfl

/-- The tree of a listing whose rows all have both columns. -/
def fileAll (rows : List Row) (pc kc : String) : PropertyTree :=
  (rows.map fun r => (r.getD pc, r.getD kc, r)).foldl (fun t e => t.file e.1 e.2.1 e.2.2)
    OrderedMap.empty

theorem propertyTree_eq :
    propertyTree rows pc kc = (firstMissing rows [pc, kc]).elim (.ok (fileAll rows pc kc)) .error := by
  unfold propertyTree
  rw [mapM_require₂_eq pc kc fun x y r => (x, y, r)]
  cases firstMissing rows [pc, kc] <;> rfl

/-- Filing rows one by one puts each parent's rows, keyed by property, under the parent. -/
theorem entries_fileAll :
    (fileAll rows pc kc).entries =
      (firstSeen (rows.map (·.getD pc))).map fun p => (p, propertyBucket rows pc kc p) := by
  have hfold := OrderedMap.entries_foldl_upsert (fun e : Value × Value × Row => e.1)
    OrderedMap.empty (fun e m => m.insert e.2.1 e.2.2) (rows.map fun r => (r.getD pc, r.getD kc, r))
  simp only [List.map_map, Function.comp_def] at hfold
  unfold fileAll PropertyTree.file
  rw [hfold]
  refine List.map_congr_left fun p _ => ?_
  simp only [propertyBucket, OrderedMap.ofList, List.filter_map, List.foldl_map]
  rfl

theorem get?_fileAll (p : Value) :
    (fileAll rows pc kc).get? p =
      if p ∈ firstSeen (rows.map (·.getD pc)) then some (propertyBucket rows pc kc p) else none :=
  OrderedMap.get?_of_entries entries_fileAll p

theorem keys_fileAll : (fileAll rows pc kc).keys = firstSeen (rows.map (·.getD pc)) := by
  rw [OrderedMap.keys, entries_fileAll, List.map_map]
  exact List.map_id _

/-- Keying the rows of one parent by property gives that parent's part of the tree. -/
theorem keyedRows_filter (h : firstMissing rows [pc, kc] = none) (p : Value) :
    keyedRows (rows.filter (·.getD pc == p)) kc = .ok (propertyBucket rows pc kc p) := by
  have hfilter : firstMissing (rows.filter (·.getD pc == p)) [kc] = none :=
    firstMissing_eq_none_iff.mpr fun r hr c hc => by
      rw [List.mem_singleton] at hc
      exact firstMissing_eq_none_iff.mp h r (List.mem_filter.mp hr).1 c (by simp [hc])
  rw [keyedRows_eq, hfilter, propertyBucket_eq_keyAll]
  rfl

/-- The last row of a parent and a property is the one the tree keeps. -/
theorem get?_propertyBucket (p q : Value) :
    (propertyBucket rows pc kc p).get? q =
      (rows.filter fun r => r.getD pc == p && r.getD kc == q).getLast? := by
  have hboth : ∀ r : Row, (r.getD kc == q && r.getD pc == p) = (r.getD pc == p && r.getD kc == q) :=
    fun r => Bool.and_comm _ _
  rw [propertyBucket_eq_keyAll, get?_keyAll, List.filter_filter]
  simp only [hboth]

theorem keys_propertyBucket (p : Value) :
    (propertyBucket rows pc kc p).keys = firstSeen ((rows.filter (·.getD pc == p)).map (·.getD kc)) := by
  rw [propertyBucket_eq_keyAll, keys_keyAll]

/-- The tree has one entry for each distinct pair of parent and property. -/
theorem sum_size_propertyBucket :
    ((firstSeen (rows.map (·.getD pc))).map fun p => (propertyBucket rows pc kc p).size).sum =
      (firstSeen (rows.map fun r => (r.getD pc, r.getD kc))).length := by
  rw [length_firstSeen_pairs, List.map_map]
  congr 1
  refine List.map_congr_left fun p _ => ?_
  simp only [propertyBucket, OrderedMap.size_ofList, List.filter_map, List.map_map]
  rfl

/-- A tree that is built is `fileAll`. -/
theorem eq_fileAll_of_propertyTree {t : PropertyTree} (ht : propertyTree rows pc kc = .ok t) :
    firstMissing rows [pc, kc] = none ∧ t = fileAll rows pc kc := by
  rw [propertyTree_eq] at ht
  obtain ⟨h, rfl⟩ := elim_eq_ok_iff.mp ht
  exact ⟨h, rfl⟩

/-- A tree with the parents of `fileAll`, holding under each what `keyedRows` makes of that
parent's rows, is `fileAll`. -/
theorem eq_fileAll_of_buckets {t : PropertyTree} (h : firstMissing rows [pc, kc] = none)
    (hkeys : t.keys = firstSeen (rows.map (·.getD pc)))
    (hget : ∀ p ∈ t.keys, ∃ bucket, t.get? p = some bucket ∧
      keyedRows (rows.filter (·.getD pc == p)) kc = .ok bucket) :
    t = fileAll rows pc kc := by
  refine OrderedMap.ext (hkeys.trans keys_fileAll.symm) fun p => ?_
  rw [get?_fileAll]
  split
  · rename_i hp
    obtain ⟨bucket, hbucket, hkeyed⟩ := hget p (hkeys ▸ hp)
    rw [keyedRows_filter h p, Except.ok.injEq] at hkeyed
    rw [hbucket, hkeyed]
  · rename_i hp
    refine Option.not_isSome_iff_eq_none.mp fun hsome => hp ?_
    exact hkeys ▸ (OrderedMap.get?_isSome_iff t p).mp hsome

/-- A lookup by parent and property finds the last row with both cells. -/
theorem get?_bind_fileAll (p q : Value) :
    ((fileAll rows pc kc).get? p).bind (·.get? q) =
      (rows.filter fun r => r.getD pc == p && r.getD kc == q).getLast? := by
  rw [get?_fileAll]
  split
  · rw [Option.bind_some, get?_propertyBucket]
  · rename_i hp
    symm
    rw [Option.bind_none, List.getLast?_eq_none_iff, List.filter_eq_nil_iff]
    intro r hr hboth
    simp only [Bool.and_eq_true, beq_iff_eq] at hboth
    exact hp (mem_firstSeen.mpr (hboth.1 ▸ List.mem_map_of_mem hr))

theorem keys_of_get?_fileAll {p : Value} {bucket : OrderedMap Value Row}
    (hbucket : (fileAll rows pc kc).get? p = some bucket) :
    bucket.keys = firstSeen ((rows.filter (·.getD pc == p)).map (·.getD kc)) := by
  rw [get?_fileAll] at hbucket
  split at hbucket
  · rw [← Option.some.inj hbucket, keys_propertyBucket]
  · cases hbucket

/-- A property tree is built exactly when no row lacks the parent or the property column, and
otherwise the first row that lacks one is the error. Its parents are the parent cells in order
of first occurrence, and under each it holds what `keyedRows` makes of that parent's rows: the
last row of each property, properties in order of first occurrence. It has one entry for each
distinct pair of parent and property. -/
theorem propertyTree_spec (rows : List Row) (pc kc : String) :
    (∀ t, propertyTree rows pc kc = .ok t ↔ firstMissing rows [pc, kc] = none ∧
      t.keys = firstSeen (rows.map (·.getD pc)) ∧
      ∀ p ∈ t.keys, ∃ bucket, t.get? p = some bucket ∧
        keyedRows (rows.filter (·.getD pc == p)) kc = .ok bucket) ∧
    (∀ e, propertyTree rows pc kc = .error e ↔ firstMissing rows [pc, kc] = some e) ∧
    (∀ t, propertyTree rows pc kc = .ok t →
      (∀ p q, (t.get? p).bind (·.get? q) =
        (rows.filter fun r => r.getD pc == p && r.getD kc == q).getLast?) ∧
      (∀ p bucket, t.get? p = some bucket →
        bucket.keys = firstSeen ((rows.filter (·.getD pc == p)).map (·.getD kc))) ∧
      (t.entries.map (·.2.size)).sum = (firstSeen (rows.map fun r => (r.getD pc, r.getD kc))).length) := by
  refine ⟨fun t => ⟨fun ht => ?_, fun ⟨h, hkeys, hget⟩ => ?_⟩, fun e => ?_, fun t ht => ?_⟩
  · obtain ⟨h, rfl⟩ := eq_fileAll_of_propertyTree ht
    refine ⟨h, keys_fileAll, fun p hp => ⟨_, ?_, keyedRows_filter h p⟩⟩
    rw [get?_fileAll, if_pos (keys_fileAll ▸ hp)]
  · rw [propertyTree_eq, h, Option.elim_none, eq_fileAll_of_buckets h hkeys hget]
  · rw [propertyTree_eq, elim_eq_error_iff, Option.map_id']
  · obtain ⟨-, rfl⟩ := eq_fileAll_of_propertyTree ht
    refine ⟨get?_bind_fileAll, fun p bucket => keys_of_get?_fileAll, ?_⟩
    rw [entries_fileAll, List.map_map]
    exact sum_size_propertyBucket

end Introspect.Listing
