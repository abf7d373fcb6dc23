import Introspect.Proofs.Listing.Groups
import Mathlib.Data.List.Induction

/-!
# Insertion-ordered maps, read through their keys and lookups

One update of an ordered map either changes the value of a key it has, in place, or appends a
new key (`keys_upsert`, `get?_upsert`). A map is determined by its keys and its lookups
(`OrderedMap.ext`), so these two facts describe every map that a fold of updates builds.

A map built from a list of pairs has the keys of the list in order of first occurrence
(`keys_ofList`), and each key's value is the value of its last pair (`get?_ofList`): the last
write wins, in the place of the first.
-/

set_option autoImplicit false
set_option relaxedAutoImplicit false

namespace Introspect

namespace Listing

variable {κ : Type} [DecidableEq κ]

/-- A cell met again adds nothing to the cells in order of first occurrence; a new one goes
last. -/
theorem firstSeen_append_singleton (ks : List κ) (k : κ) :
    firstSeen (ks ++ [k]) = if k ∈ ks then firstSeen ks else firstSeen ks ++ [k] := by
  have hstep : firstSeen (ks ++ [k]) =
      if k ∈ firstSeen ks then firstSeen ks else firstSeen ks ++ [k] := by
    unfold firstSeen
    rw [List.foldl_append]
    rfl
  rw [hstep]
  simp only [mem_firstSeen]

end Listing

namespace OrderedMap

variable {κ ν : Type}

@[simp] theorem keys_empty : (empty : OrderedMap κ ν).keys = [] := rfl

@[simp] theorem keys_mapValues {μ : Type} (m : OrderedMap κ ν) (f : ν → μ) :
    (m.mapValues f).keys = m.keys := by
  simp [keys, mapValues]

variable [DecidableEq κ]

@[simp] theorem get?_empty (k : κ) : (empty : OrderedMap κ ν).get? k = none := rfl

theorem lookup_cons_ite (k a : κ) (b : ν) (l : List (κ × ν)) :
    ((a, b) :: l).lookup k = if k = a then some b else l.lookup k := by
  by_cases h : k = a
  · subst h
    simp
  · simp [List.lookup_cons, beq_false_of_ne h, h]

/-- A key looks up a value exactly when the map has it. -/
theorem get?_isSome_iff (m : OrderedMap κ ν) (k : κ) : (m.get? k).isSome ↔ k ∈ m.keys := by
  unfold get? keys
  induction m.entries with
  | nil => simp
  | cons e es ih =>
    rw [List.map_cons, List.mem_cons, lookup_cons_ite]
    by_cases h : k = e.1
    · simp [h]
    · simp [h, ih]

/-- Mapping the values looks every key up to its mapped value. -/
@[simp] theorem get?_mapValues {μ : Type} (m : OrderedMap κ ν) (f : ν → μ) (k : κ) :
    (m.mapValues f).get? k = (m.get? k).map f := by
  simp only [get?, mapValues]
  induction m.entries with
  | nil => rfl
  | cons e es ih =>
    rw [List.map_cons, lookup_cons_ite, lookup_cons_ite, ih]
    split <;> rfl

theorem entries_upsert_of_mem {m : OrderedMap κ ν} {k : κ} (init : ν) (f : ν → ν)
    (h : k ∈ m.keys) :
    (m.upsert k init f).entries = m.entries.map fun e => if e.1 = k then (e.1, f e.2) else e := by
  rw [upsert, dif_pos h]

theorem entries_upsert_of_not_mem {m : OrderedMap κ ν} {k : κ} (init : ν) (f : ν → ν)
    (h : k ∉ m.keys) : (m.upsert k init f).entries = m.entries ++ [(k, f init)] := by
  rw [upsert, dif_neg h]

theorem keys_upsert (m : OrderedMap κ ν) (k : κ) (init : ν) (f : ν → ν) :
    (m.upsert k init f).keys = if k ∈ m.keys then m.keys else m.keys ++ [k] := by
  by_cases h : k ∈ m.keys
  · rw [if_pos h, keys, entries_upsert_of_mem init f h]
    exact keys_map_update m.entries k f
  · rw [if_neg h, keys, entries_upsert_of_not_mem init f h]
    simp [keys]

/-- Updating values in place looks the updated key up to its new value. -/
theorem lookup_map_update (l : List (κ × ν)) (k k' : κ) (f : ν → ν) :
    (l.map fun e => if e.1 = k then (e.1, f e.2) else e).lookup k' =
      if k' = k then (l.lookup k).map f else l.lookup k' := by
  induction l with
  | nil => split <;> rfl
  | cons e es ih =>
    obtain ⟨a, b⟩ := e
    by_cases hak : a = k
    · subst hak
      by_cases hk' : k' = a <;> simp [hk', lookup_cons_ite, ih]
    · by_cases hk' : k' = a
      · subst hk'
        simp [hak]
      · simp [hak, Ne.symm hak, hk', lookup_cons_ite, ih]

/-- An update sets the value of its key from the old value, or from `init` when there was
none, and leaves every other key as it was. -/
theorem get?_upsert (m : OrderedMap κ ν) (k k' : κ) (init : ν) (f : ν → ν) :
    (m.upsert k init f).get? k' =
      if k' = k then some (f ((m.get? k).getD init)) else m.get? k' := by
  by_cases h : k ∈ m.keys
  · obtain ⟨v, hv⟩ := Option.isSome_iff_exists.mp ((get?_isSome_iff m k).mpr h)
    rw [get?, entries_upsert_of_mem init f h, lookup_map_update, hv]
    simp only [get?] at hv
    rw [hv]
    rfl
  · have hnone : m.get? k = none := Option.not_isSome_iff_eq_none.mp (mt (get?_isSome_iff m k).mp h)
    rw [get?, entries_upsert_of_not_mem init f h, List.lookup_append, hnone]
    simp only [get?] at hnone
    by_cases hk' : k' = k
    · subst hk'
      simp [hnone]
    · cases hl : m.entries.lookup k' <;> simp [hk', lookup_cons_ite, get?, hl]

/-- Maps with the same keys that look every key up alike are equal. Walking both entry lists, equal
first keys look up the same value. -/
theorem ext {m m' : OrderedMap κ ν} (hkeys : m.keys = m'.keys) (hget : ∀ k, m.get? k = m'.get? k) :
    m = m' := by
  obtain ⟨l, hl⟩ := m
  obtain ⟨l', hl'⟩ := m'
  simp only [keys, get?] at hkeys hget
  suffices l = l' by subst this; rfl
  induction l generalizing l' with
  | nil => simpa using hkeys.symm
  | cons e es ih =>
    obtain ⟨e', es', rfl⟩ : ∃ e' es', l' = e' :: es' :=
      List.exists_cons_of_ne_nil fun h => by simp [h] at hkeys
    simp only [List.map_cons, List.cons.injEq] at hkeys
    have hv : e.2 = e'.2 := by
      have := hget e.1
      rw [lookup_cons_ite, lookup_cons_ite, if_pos rfl, if_pos hkeys.1] at this
      exact Option.some.inj this
    have hes : es = es' := by
      refine ih (List.nodup_cons.mp hl).2 es' (List.nodup_cons.mp hl').2 hkeys.2 fun k => ?_
      by_cases hk : k = e.1
      · subst hk
        have hn : e.1 ∉ es.map Prod.fst := (List.nodup_cons.mp hl).1
        have hn' : e.1 ∉ es'.map Prod.fst := hkeys.1 ▸ (List.nodup_cons.mp hl').1
        rw [List.lookup_eq_none_iff.mpr, List.lookup_eq_none_iff.mpr]
        · intro p hp
          rw [bne_iff_ne]
          rintro h
          exact hn' (by rw [h]; exact List.mem_map_of_mem hp)
        · intro p hp
          rw [bne_iff_ne]
          rintro h
          exact hn (by rw [h]; exact List.mem_map_of_mem hp)
      · have := hget k
        rw [lookup_cons_ite, lookup_cons_ite, if_neg hk, if_neg (hkeys.1 ▸ hk)] at this
        exact this
    rw [Prod.ext hkeys.1 hv, hes]

/-- A map whose entries pair each key of a list without repeats with a value looks up exactly
those keys. -/
theorem get?_of_entries {m : OrderedMap κ ν} {ks : List κ} {F : κ → ν}
    (h : m.entries = ks.map fun k => (k, F k)) (k : κ) :
    m.get? k = if k ∈ ks then some (F k) else none := by
  rw [get?, h]
  split
  · exact List.lookup_graph F ‹_›
  · rename_i hk
    refine List.lookup_eq_none_iff.mpr fun p hp => ?_
    obtain ⟨k', hk', rfl⟩ := List.mem_map.mp hp
    exact bne_iff_ne.mpr fun h => hk (h ▸ hk')

/-- Folding updates from the empty map: one entry per key, in order of first occurrence, each
holding the updates of its key applied in order to `init`. A key met before takes one more update in
place; a new key goes last, with `init` updated once. -/
theorem entries_foldl_upsert {α : Type} (key : α → κ) (init : ν) (g : α → ν → ν) (l : List α) :
    (l.foldl (fun m a => m.upsert (key a) init (g a)) empty).entries =
      (Listing.firstSeen (l.map key)).map fun k =>
        (k, (l.filter (key · == k)).foldl (fun v a => g a v) init) := by
  induction l using List.reverseRecOn with
  | nil => rfl
  | append_singleton l a ih =>
    have hkeys : (l.foldl (fun m a => m.upsert (key a) init (g a)) empty).keys =
        Listing.firstSeen (l.map key) := by
      rw [keys, ih, List.map_map]
      exact List.map_id _
    rw [List.foldl_append, List.foldl_cons, List.foldl_nil, List.map_append, List.map_singleton,
      Listing.firstSeen_append_singleton]
    generalize l.foldl (fun m a => m.upsert (key a) init (g a)) empty = M at ih hkeys
    by_cases hmem : key a ∈ M.keys
    · rw [entries_upsert_of_mem init (g a) hmem, ih, List.map_map]
      rw [hkeys, Listing.mem_firstSeen] at hmem
      rw [if_pos hmem]
      refine List.map_congr_left fun k _ => ?_
      by_cases hk : k = key a
      · subst hk
        simp [List.filter_append, List.foldl_append]
      · simp [hk, List.filter_append, beq_false_of_ne (Ne.symm hk)]
    · rw [entries_upsert_of_not_mem init (g a) hmem, ih]
      rw [hkeys, Listing.mem_firstSeen] at hmem
      rw [if_neg hmem, List.map_append, List.map_singleton]
      have hnone : l.filter (key · == key a) = [] :=
        List.filter_eq_nil_iff.mpr fun b hb hba =>
          hmem (beq_iff_eq.mp hba ▸ List.mem_map_of_mem hb)
      congr 1
      · refine List.map_congr_left fun k hk => ?_
        have hne : key a ≠ k := fun h => hmem (h ▸ Listing.mem_firstSeen.mp hk)
        simp [List.filter_append, beq_false_of_ne hne]
      · simp [List.filter_append, hnone]

theorem ofList_append_singleton (l : List (κ × ν)) (e : κ × ν) :
    ofList (l ++ [e]) = (ofList l).insert e.1 e.2 := by
  unfold ofList
  rw [List.foldl_append, List.foldl_cons, List.foldl_nil]

/-- The keys of a map built from pairs are those of the pairs, in order of first occurrence. -/
theorem keys_ofList (l : List (κ × ν)) : (ofList l).keys = Listing.firstSeen (l.map Prod.fst) := by
  induction l using List.reverseRecOn with
  | nil => rfl
  | append_singleton l e ih =>
    rw [ofList_append_singleton, insert, keys_upsert, ih, List.map_append, List.map_singleton,
      Listing.firstSeen_append_singleton]
    simp only [Listing.mem_firstSeen]

/-- The value of a key in a map built from pairs is that of its last pair. -/
theorem get?_ofList (l : List (κ × ν)) (k : κ) :
    (ofList l).get? k = (l.filter (·.1 == k)).getLast?.map Prod.snd := by
  induction l using List.reverseRecOn with
  | nil => rfl
  | append_singleton l e ih =>
    rw [ofList_append_singleton, insert, get?_upsert, List.filter_append, List.getLast?_append]
    by_cases hk : k = e.1
    · subst hk
      simp
    · have : (e.1 == k) = false := beq_false_of_ne (Ne.symm hk)
      simp [hk, this, ih]

theorem size_ofList (l : List (κ × ν)) : (ofList l).size = (Listing.firstSeen (l.map Prod.fst)).length := by
  rw [← keys_ofList]
  exact (List.length_map _).symm

end OrderedMap

end Introspect
