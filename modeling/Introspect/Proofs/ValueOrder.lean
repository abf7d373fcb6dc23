import Introspect.Value
import Introspect.Proofs.ExactIntegers
import Introspect.Proofs.Utf8

/-!
# The sort order of cells

`Value.compare` sorts cells by kind, then within the kind. Swapping two cells swaps the answer,
for every pair of cells (`compare_swap`), so every cell compares equal to itself.

It is transitive once every integer involved is at most `2 ^ 53` in magnitude (`Value.Exact`).
On such cells it is the lexicographic order on the kind and then on where the cell stands within
its kind (`compare_eq_compareLex`): its truth value, the place of its binary64 value in the total
order on patterns (an integer's value being exact), or its code points. That order is transitive,
and so is the sort order on exact cells (`compare_isLE_trans`). Code point order is also the order
of the texts' UTF-8 bytes (`Text.lt_iff_bytes_lt`), so text cells sort bytewise.

Past `2 ^ 53` it is not (`compare_not_transitive`): `2 ^ 53 + 1` rounds onto the binary64 value
`2 ^ 53`, which then ties with both the integers `2 ^ 53 + 1` and `2 ^ 53`, while those two are
ordered.
-/

set_option autoImplicit false
set_option relaxedAutoImplicit false

namespace Introspect

/-- Code point order is the lexicographic order on the code points. -/
theorem Text.compareCodePoints_eq_compare_map (cs ds : List Char) :
    Text.compareCodePoints cs ds = compare (cs.map Char.toNat) (ds.map Char.toNat) := by
  induction cs generalizing ds with
  | nil => cases ds <;> rfl
  | cons c cs ih =>
    cases ds with
    | nil => rfl
    | cons d ds =>
      simp only [Text.compareCodePoints, List.map_cons, List.compare_cons_cons, ← ih]
      cases compare c.toNat d.toNat <;> rfl

/-- A text sorts before another exactly when it is less in the order of strings. -/
theorem Text.compareCodePoints_eq_lt_iff :
    ∀ cs ds : List Char, Text.compareCodePoints cs ds = .lt ↔ cs < ds
  | [], [] => by simp [Text.compareCodePoints]
  | [], _ :: _ => by simp [Text.compareCodePoints, List.nil_lt_cons]
  | _ :: _, [] => by simp [Text.compareCodePoints, List.not_lt_nil]
  | c :: cs, d :: ds => by
    have hchar : c < d ↔ c.toNat < d.toNat := by
      rw [Char.lt_def, UInt32.lt_iff_toNat_lt]
      rfl
    rw [List.cons_lt_cons_iff, Text.compareCodePoints]
    rcases Nat.lt_trichotomy c.toNat d.toNat with h | h | h
    · simp [Nat.compare_eq_lt.mpr h, hchar.mpr h]
    · obtain rfl : c = d := Char.toNat_inj.mp h
      simp [Text.compareCodePoints_eq_lt_iff cs ds]
    · have hdc : ¬ c < d := by rw [hchar]; omega
      have hne : c ≠ d := fun hcd => by subst hcd; omega
      simp [Nat.compare_eq_gt.mpr h, hdc, hne]

namespace Value

/-- Swapping two cells swaps their order. -/
theorem compare_swap (a b : Value) : b.compare a = (a.compare b).swap := by
  cases a <;> cases b <;>
    simp only [compare, rank, Binary64.compareTotal, Nat.compare_swap, Int.compare_swap]
  simp only [Text.compareCodePoints_eq_compare_map]
  exact Std.OrientedOrd.eq_swap

theorem compare_text_eq_lt_iff {a b : String} : (text a).compare (text b) = .lt ↔ a < b :=
  Text.compareCodePoints_eq_lt_iff a.toList b.toList

/-- Text cells sort bytewise. -/
theorem compare_text_eq_lt_iff_bytes {a b : String} :
    (text a).compare (text b) = .lt ↔ a.toByteArray.data.toList < b.toByteArray.data.toList :=
  compare_text_eq_lt_iff.trans Text.lt_iff_bytes_lt

/-- A cell whose integer, if it holds one, is at most `2 ^ 53` in magnitude: binary64 holds it
exactly. -/
def Exact : Value → Prop
  | .int i => i.toInt.natAbs ≤ 2 ^ 53
  | _ => True

instance : DecidablePred Exact
  | .null => isTrue trivial
  | .bool _ => isTrue trivial
  | .int i => inferInstanceAs (Decidable (i.toInt.natAbs ≤ 2 ^ 53))
  | .float _ => isTrue trivial
  | .text _ => isTrue trivial

/-- Where a cell stands within its kind, compared lexicographically: its truth value, the place
of its binary64 value in the total order on patterns (an integer converted), or its code
points. -/
def standing : Value → List Nat
  | .null => []
  | .bool b => [b.toNat]
  | .int i => [(Binary64.ofInt i.toInt).orderKey]
  | .float x => [x.orderKey]
  | .text s => s.toList.map Char.toNat

/-- Cells of different kinds are ordered by kind. -/
theorem compare_of_rank_ne {a b : Value} (h : a.rank ≠ b.rank) :
    a.compare b = Ord.compare a.rank b.rank := by
  cases a <;> cases b <;> simp only [rank, ne_eq, not_true_eq_false] at h <;> rfl

/-- Exact cells of one kind are ordered by their standing. -/
theorem compare_of_rank_eq {a b : Value} (h : a.rank = b.rank) (ha : a.Exact) (hb : b.Exact) :
    a.compare b = Ord.compare a.standing b.standing := by
  cases a <;> cases b <;> simp [rank] at h <;>
    simp only [compare, rank, standing, Binary64.compareTotal, List.compare_cons_cons,
      Ordering.then_eq, Std.ReflOrd.compare_self]
  case int.int i j => exact (Binary64.compare_orderKey_ofInt ha hb).symm
  case text.text s t => exact Text.compareCodePoints_eq_compare_map _ _

/-- On exact cells the sort order is the lexicographic order on the kind and the standing. -/
theorem compare_eq_compareLex {a b : Value} (ha : a.Exact) (hb : b.Exact) :
    a.compare b = compareLex (compareOn rank) (compareOn standing) a b := by
  simp only [compareLex, compareOn]
  by_cases h : a.rank = b.rank
  · rw [h, Std.ReflOrd.compare_self, Ordering.eq_then, compare_of_rank_eq h ha hb]
  · have hne : Ord.compare a.rank b.rank ≠ .eq := fun heq => h (Nat.compare_eq_eq.mp heq)
    rw [compare_of_rank_ne h]
    cases hc : Ord.compare a.rank b.rank with
    | eq => exact absurd hc hne
    | lt => rfl
    | gt => rfl

/-- The sort order is transitive on exact cells. -/
theorem compare_isLE_trans {a b c : Value} (ha : a.Exact) (hb : b.Exact) (hc : c.Exact)
    (hab : (a.compare b).isLE) (hbc : (b.compare c).isLE) : (a.compare c).isLE := by
  rw [compare_eq_compareLex ha hb] at hab
  rw [compare_eq_compareLex hb hc] at hbc
  rw [compare_eq_compareLex ha hc]
  exact Std.TransCmp.isLE_trans hab hbc

/-- The sort order of cells is a total preorder on cells whose integers are at most `2 ^ 53` in
magnitude: each compares equal to itself, swapping two swaps their order, "not after" is
transitive, and two cells that are the same key compare equal. Only transitivity needs the
bound (`compare_self`, `compare_swap` hold of every cell). -/
theorem compare_total_preorder_of_exact (a b c : Value) (ha : a.Exact) (hb : b.Exact)
    (hc : c.Exact) :
    a.compare a = .eq ∧ b.compare a = (a.compare b).swap ∧
      (a.compare b ≠ .gt → b.compare c ≠ .gt → a.compare c ≠ .gt) ∧
      ((a == b) = true → a.compare b = .eq) := by
  refine ⟨compare_self a, compare_swap a b, fun hab hbc => ?_, fun hab => ?_⟩
  · exact Ordering.ne_gt_iff_isLE.mpr
      (compare_isLE_trans ha hb hc (Ordering.ne_gt_iff_isLE.mp hab)
        (Ordering.ne_gt_iff_isLE.mp hbc))
  · rw [eq_of_beq hab]
    exact compare_self b

theorem compare_total_preorder_one_three_halves_two :
    (Value.int 1).Exact ∧ (Value.float ⟨0x3FF8000000000000⟩).Exact ∧ (Value.int 2).Exact ∧
      ((Value.int 1).compare (.float ⟨0x3FF8000000000000⟩) ≠ .gt →
        (Value.float ⟨0x3FF8000000000000⟩).compare (.int 2) ≠ .gt →
        (Value.int 1).compare (.int 2) ≠ .gt) :=
  ⟨by decide, trivial, by decide,
    (compare_total_preorder_of_exact (.int 1) (.float ⟨0x3FF8000000000000⟩) (.int 2)
      (by decide) trivial (by decide)).2.2.1⟩

/-- Past `2 ^ 53` the order is not transitive: the integer `2 ^ 53 + 1` rounds onto the binary64
value `2 ^ 53` and ties with it, and so does the integer `2 ^ 53`, yet the two integers are
ordered. -/
theorem compare_not_transitive :
    ¬ ∀ a b c : Value, a.compare b ≠ .gt → b.compare c ≠ .gt → a.compare c ≠ .gt := by
  intro htrans
  have hties :
      (Value.int 9007199254740993).compare (.float (Binary64.ofInt 9007199254740992)) = .eq ∧
        (Value.float (Binary64.ofInt 9007199254740992)).compare (.int 9007199254740992) = .eq := by
    decide
  have hgt : (Value.int 9007199254740993).compare (.int 9007199254740992) = .gt := by decide
  exact htrans _ _ _ (by rw [hties.1]; decide) (by rw [hties.2]; decide) hgt

end Value

end Introspect
