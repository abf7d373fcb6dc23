/-!
# Insertion-ordered maps

An ordered map is a list of entries with distinct keys, in the order in which the keys first
arrived. Updating a key that is present changes its value in place; a new key is appended. A map
built from a list of pairs therefore holds, for each key, its last value at the position of its
first occurrence.

Distinct keys are a field of the structure, so every map a function returns has them. The view
is `entries`; `get?` looks a key up in it, and `keys` lists the keys in order.
-/

set_option autoImplicit false
set_option relaxedAutoImplicit false

namespace Introspect

/-- Entries with distinct keys, in order of first arrival. -/
structure OrderedMap (κ : Type) (ν : Type) where
  entries : List (κ × ν)
  keys_nodup : (entries.map Prod.fst).Nodup

namespace OrderedMap

variable {κ ν : Type}

theorem nodup_keys_append {l : List (κ × ν)} (hl : (l.map Prod.fst).Nodup) {k : κ}
    (hk : k ∉ l.map Prod.fst) (v : ν) : ((l ++ [(k, v)]).map Prod.fst).Nodup := by
  rw [List.map_append, List.nodup_append]
  refine ⟨hl, by simp, ?_⟩
  intro a ha b hb hab
  simp only [List.map_cons, List.map_nil, List.mem_singleton] at hb
  exact hk (hb ▸ hab ▸ ha)

variable [DecidableEq κ]

/-- The map without entries. -/
def empty : OrderedMap κ ν := ⟨[], List.nodup_nil⟩

/-- The keys, in order of first arrival. -/
def keys (m : OrderedMap κ ν) : List κ := m.entries.map Prod.fst

/-- The number of entries. -/
def size (m : OrderedMap κ ν) : Nat := m.entries.length

/-- The value of a key. -/
def get? (m : OrderedMap κ ν) (k : κ) : Option ν := m.entries.lookup k

theorem keys_map_update (l : List (κ × ν)) (k : κ) (f : ν → ν) :
    (l.map (fun e => if e.1 = k then (e.1, f e.2) else e)).map Prod.fst = l.map Prod.fst := by
  rw [List.map_map]
  congr 1
  funext e
  by_cases h : e.1 = k <;> simp [h]

/-- Applies `f` to the value of `k`, or appends `k` with `f init` when it is absent. -/
def upsert (m : OrderedMap κ ν) (k : κ) (init : ν) (f : ν → ν) : OrderedMap κ ν :=
  if h : k ∈ m.keys then
    ⟨m.entries.map (fun e => if e.1 = k then (e.1, f e.2) else e),
      (keys_map_update m.entries k f).symm ▸ m.keys_nodup⟩
  else ⟨m.entries ++ [(k, f init)], nodup_keys_append m.keys_nodup h (f init)⟩

/-- Sets the value of `k`: in place when present, appended when new. -/
def insert (m : OrderedMap κ ν) (k : κ) (v : ν) : OrderedMap κ ν := m.upsert k v (fun _ => v)

/-- The map of a list of pairs, inserted from left to right. -/
def ofList (l : List (κ × ν)) : OrderedMap κ ν := l.foldl (fun m e => m.insert e.1 e.2) empty

/-- The same keys with every value mapped. -/
def mapValues {μ : Type} (m : OrderedMap κ ν) (f : ν → μ) : OrderedMap κ μ :=
  ⟨m.entries.map (fun e => (e.1, f e.2)), by
    rw [List.map_map]
    have h : (Prod.fst ∘ fun e : κ × ν => (e.1, f e.2)) = Prod.fst := rfl
    exact h ▸ m.keys_nodup⟩

theorem keys_insert_of_mem (m : OrderedMap κ ν) (k : κ) (v : ν) (h : k ∈ m.keys) :
    (m.insert k v).keys = m.keys := by
  rw [insert, upsert, dif_pos h]
  exact keys_map_update m.entries k (fun _ => v)

theorem keys_insert_of_not_mem (m : OrderedMap κ ν) (k : κ) (v : ν) (h : k ∉ m.keys) :
    (m.insert k v).keys = m.keys ++ [k] := by
  rw [insert, upsert, dif_neg h]
  simp [keys]

end OrderedMap

end Introspect
