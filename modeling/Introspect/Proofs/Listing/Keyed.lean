import Introspect.Listing.Index
import Introspect.Proofs.Listing.Missing
import Introspect.Proofs.OrderedMap

/-!
# Rows and cells keyed by a column

`keyedRows` files every row of a listing under its cell in a key column, and `propertyValues`
files there the row's cell in a value column instead. Both read the listing row by row, so each
is built exactly when no row lacks a column that it reads, and otherwise the first row that lacks
one is the error (`keyedRows_eq`, `propertyValues_eq`).

A built map has the key cells in order of first occurrence, one entry per distinct cell, and a
key finds its last row: the last write wins, in the place of the first (`keyedRows_spec`). Keys
are cells, the same key when they have the same kind and payload, binary64 values by their bits.

Filing value cells is filing rows and then reading the value cell of each row kept
(`propertyValues_eq_mapValues`): both maps have the same keys, and a key finds the value cell of
the row that `keyedRows` keeps (`propertyValues_spec`). Only `propertyValues` reads the value
column, and it reads it in every row, so a row without it is an error even when a later row of the
same key replaces it.
-/

set_option autoImplicit false
set_option relaxedAutoImplicit false

namespace Introspect.Listing

variable {rows : List Row} {k v : String}

/-- The rows keyed by their cell in `k`, the last row of each key kept. -/
def keyAll (rows : List Row) (k : String) : OrderedMap Value Row :=
  OrderedMap.ofList (rows.map fun r => (r.getD k, r))

theorem keyedRows_eq :
    keyedRows rows k = (firstMissing rows [k]).elim (.ok (keyAll rows k)) .error := by
  unfold keyedRows
  rw [mapM_require_eq k fun x r => (x, r)]
  cases firstMissing rows [k] <;> rfl

theorem keys_keyAll : (keyAll rows k).keys = firstSeen (rows.map (·.getD k)) := by
  rw [keyAll, OrderedMap.keys_ofList, List.map_map]
  rfl

/-- A key finds the last row with that cell. -/
theorem get?_keyAll (key : Value) :
    (keyAll rows k).get? key = (rows.filter (·.getD k == key)).getLast? := by
  have hsnd : (Prod.snd ∘ fun r : Row => (r.getD k, r)) = id := rfl
  rw [keyAll, OrderedMap.get?_ofList, List.filter_map, List.getLast?_map, Option.map_map, hsnd,
    Option.map_id]
  rfl

/-- There is one entry per distinct key cell. -/
theorem size_keyAll : (keyAll rows k).size = (rows.map (·.getD k)).dedup.length := by
  rw [OrderedMap.size, ← List.length_map (f := Prod.fst), ← OrderedMap.keys, keys_keyAll]
  exact (firstSeen_perm_dedup _).length_eq

/-- Keying rows by a column builds a map exactly when every row has the column, and otherwise
fails at the first row that lacks it. The map has the key cells in order of first occurrence, a
key finds the last row with that cell, and there is one entry per distinct cell. -/
theorem keyedRows_spec (rows : List Row) (k : String) :
    (∀ m, keyedRows rows k = .ok m ↔ firstMissing rows [k] = none ∧
      m.keys = firstSeen (rows.map (·.getD k)) ∧
      ∀ key, m.get? key = (rows.filter (·.getD k == key)).getLast?) ∧
    (∀ e, keyedRows rows k = .error e ↔ firstMissing rows [k] = some e) ∧
    (∀ m, keyedRows rows k = .ok m → m.size = (rows.map (·.getD k)).dedup.length) := by
  refine ⟨fun m => ?_, fun e => ?_, fun m hm => ?_⟩
  · rw [keyedRows_eq, elim_eq_ok_iff]
    refine and_congr_right fun _ => ⟨?_, fun ⟨hkeys, hget⟩ => ?_⟩
    · rintro rfl
      exact ⟨keys_keyAll, get?_keyAll⟩
    · exact OrderedMap.ext (keys_keyAll.trans hkeys.symm) fun key => (get?_keyAll key).trans (hget key).symm
  · rw [keyedRows_eq, elim_eq_error_iff, Option.map_id']
  · rw [keyedRows_eq, elim_eq_ok_iff] at hm
    rw [← hm.2]
    exact size_keyAll

/-- Null and the empty text, `1` and the text `1`, `1` and `1.0`, and the two zeros are four pairs
of different keys. -/
example : (keyedRows ([Value.null, .text "", .int 1, .text "1", .float ⟨0x3FF0000000000000⟩,
    .float ⟨0⟩, .float ⟨0x8000000000000000⟩].map fun c => Row.ofList [("k", c)]) "k").toOption.map
    OrderedMap.size = some 7 := by
  decide

/-! ### Value cells -/

theorem propertyValues_eq :
    propertyValues rows k v =
      (firstMissing rows [k, v]).elim
        (.ok (OrderedMap.ofList (rows.map fun r => (r.getD k, r.getD v)))) .error := by
  unfold propertyValues
  rw [mapM_require₂_eq k v fun x y _ => (x, y)]
  cases firstMissing rows [k, v] <;> rfl

/-- The value cells by key are the rows by key, each read in the value column. -/
theorem propertyValues_eq_mapValues :
    OrderedMap.ofList (rows.map fun r => (r.getD k, r.getD v)) = (keyAll rows k).mapValues (·.getD v) := by
  refine OrderedMap.ext ?_ fun key => ?_
  · rw [OrderedMap.keys_ofList, List.map_map, OrderedMap.keys, OrderedMap.mapValues, List.map_map]
    exact keys_keyAll.symm
  · rw [OrderedMap.get?_ofList, OrderedMap.get?_mapValues, get?_keyAll, List.filter_map,
      List.getLast?_map, Option.map_map]
    rfl

/-- When every row has the value column, reading it from the row that a key finds is reading its
cell. -/
theorem get?_bind_keyAll (h : firstMissing rows [k, v] = none) (key : Value) :
    ((keyAll rows k).get? key).bind (·.get? v) = ((keyAll rows k).get? key).map (·.getD v) := by
  cases hr : (keyAll rows k).get? key with
  | none => rfl
  | some r =>
    have hmem : r ∈ rows := by
      rw [get?_keyAll] at hr
      exact (List.mem_filter.mp (List.mem_of_getLast? hr)).1
    obtain ⟨c, hc⟩ := Option.isSome_iff_exists.mp
      (firstMissing_eq_none_iff.mp h r hmem v (by simp))
    simp [Row.getD, hc]

/-- Value cells keyed by a column are built exactly when every row has the key and the value
column; otherwise the first row that lacks the key column, or has it and lacks the value column,
is the error. A built map has the keys of the rows keyed by that column, in the same order, and
a key finds the value cell of the row that it finds there. -/
theorem propertyValues_spec (rows : List Row) (k v : String) :
    (∀ m, propertyValues rows k v = .ok m ↔ firstMissing rows [k, v] = none ∧
      ∃ byKey, keyedRows rows k = .ok byKey ∧ m.keys = byKey.keys ∧
        ∀ key, m.get? key = (byKey.get? key).bind (·.get? v)) ∧
    (∀ e, propertyValues rows k v = .error e ↔ firstMissing rows [k, v] = some e) := by
  refine ⟨fun m => ?_, fun e => ?_⟩
  · rw [propertyValues_eq, elim_eq_ok_iff, propertyValues_eq_mapValues]
    refine and_congr_right fun h => ?_
    have hk : firstMissing rows [k] = none :=
      firstMissing_eq_none_iff.mpr fun r hr c hc =>
        firstMissing_eq_none_iff.mp h r hr c (by simp_all)
    have hkeyed : keyedRows rows k = .ok (keyAll rows k) := by
      rw [keyedRows_eq, hk]
      rfl
    constructor
    · rintro rfl
      refine ⟨keyAll rows k, hkeyed, OrderedMap.keys_mapValues _ _, fun key => ?_⟩
      rw [OrderedMap.get?_mapValues, get?_bind_keyAll h]
    · rintro ⟨byKey, hbyKey, hkeys, hget⟩
      obtain rfl : byKey = keyAll rows k := Except.ok.inj (hbyKey.symm.trans hkeyed)
      refine OrderedMap.ext (by rw [OrderedMap.keys_mapValues, hkeys]) fun key => ?_
      rw [OrderedMap.get?_mapValues, hget, get?_bind_keyAll h]
  · rw [propertyValues_eq, elim_eq_error_iff, Option.map_id']

end Introspect.Listing
