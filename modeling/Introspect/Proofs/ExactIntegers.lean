import Introspect.Binary64.Round
import Mathlib

/-!
# Integers that binary64 holds exactly

A positive integer `m` below `2 ^ 53` has at most 53 significant bits, so converting it rounds
nothing away: its pattern has the exponent field `log₂ m + 1023` and the bits of `m` after the
leading one as its fraction (`roundRatio_one_bits`), and `2 ^ 53` itself is the first value of
the next binade. Those patterns increase with `m` (`roundRatio_one_bits_lt`), and a negative
integer is the same pattern with the sign bit set, which the total order reads backwards.

So on the integers of magnitude at most `2 ^ 53` the conversion is strictly increasing in the
total order on patterns, and two such integers compare as their binary64 values do
(`compare_orderKey_ofInt`). Past `2 ^ 53` the grid of binary64 values is coarser than the
integers, and `2 ^ 53 + 1` rounds, to even, onto `2 ^ 53`.
-/

set_option autoImplicit false
set_option relaxedAutoImplicit false

namespace Introspect.Binary64

/-! ### The sign bit and the total order -/

theorem xor_two_pow_of_lt {a n : Nat} (h : a < 2 ^ n) : a ^^^ 2 ^ n = a + 2 ^ n := by
  rw [← Nat.or_two_pow_eq_add_of_lt h]
  apply Nat.eq_of_testBit_eq
  intro j
  simp only [Nat.testBit_xor, Nat.testBit_or, Nat.testBit_two_pow]
  by_cases hj : n = j
  · subst hj
    simp [Nat.testBit_lt_two_pow h]
  · simp [hj]

theorem negative_eq_false_iff (x : Binary64) : x.negative = false ↔ x.bits.toNat < 2 ^ 63 := by
  simp [negative]

/-- A pattern with a clear sign bit stands above every negative one, in the order of its bits. -/
theorem orderKey_of_negative_eq_false {x : Binary64} (hx : x.negative = false) :
    x.orderKey = x.bits.toNat + 2 ^ 63 := by
  simp [orderKey, hx]

/-- Setting the sign bit of a pattern mirrors it below the zeros. -/
theorem orderKey_negate {x : Binary64} (hx : x.negative = false) :
    x.negate.orderKey = 2 ^ 63 - 1 - x.bits.toNat := by
  have hlt := (negative_eq_false_iff x).mp hx
  have hbits : x.negate.bits.toNat = x.bits.toNat + 2 ^ 63 := by
    have hsign : (0x8000000000000000 : UInt64).toNat = 2 ^ 63 := rfl
    rw [negate, UInt64.toNat_xor, hsign, xor_two_pow_of_lt hlt]
  have hneg : x.negate.negative = true := by
    rw [negative_iff, hbits, Nat.pow_eq]
    omega
  rw [orderKey, hneg, if_pos rfl, hbits]
  simp only [Nat.pow_eq]
  omega

/-! ### Rounding a positive integer of at most 53 bits -/

theorem log2Ratio_one {m : Nat} (hm : m ≠ 0) : log2Ratio m 1 = m.log2 := by
  have hle := Nat.log2_self_le hm
  have hone : Nat.log2 1 = 0 := Nat.log2_two_pow (n := 0)
  simp [log2Ratio, atLeastPow2, hone, hle]

/-- Scaled to 53 bits, an integer of binary exponent `L ≤ 52` lands in `[2 ^ 52, 2 ^ 53)`. -/
theorem scaled_bounds {m : Nat} (hm : m ≠ 0) (hlog : m.log2 ≤ 52) :
    2 ^ 52 ≤ m * 2 ^ (52 - m.log2) ∧ m * 2 ^ (52 - m.log2) < 2 ^ 53 := by
  have hscale : 2 ^ m.log2 * 2 ^ (52 - m.log2) = 2 ^ 52 := by
    rw [← Nat.pow_add, Nat.add_sub_cancel' hlog]
  constructor
  · calc 2 ^ 52 = 2 ^ m.log2 * 2 ^ (52 - m.log2) := hscale.symm
      _ ≤ m * 2 ^ (52 - m.log2) := Nat.mul_le_mul_right _ (Nat.log2_self_le hm)
  · calc m * 2 ^ (52 - m.log2) < 2 ^ (m.log2 + 1) * 2 ^ (52 - m.log2) :=
          Nat.mul_lt_mul_of_pos_right Nat.lt_log2_self (Nat.two_pow_pos _)
      _ = 2 ^ 53 := by rw [← Nat.pow_add]; congr 1; omega

/-- A 53-bit significand on a grid below the overflow threshold is packed as it is: the grid
exponent goes to the exponent field and the bits after the leading one to the fraction. -/
theorem encode_bits {n : Nat} {q : Int} (hlow : 2 ^ 52 ≤ n) (hhigh : n < 2 ^ 53) (hq : q ≤ 971) :
    (encode n q).bits.toNat = (q + 1075).toNat * 2 ^ 52 + (n - 2 ^ 52) := by
  have hcarry : (n == 2 ^ 53) = false := by
    simp only [beq_eq_false_iff_ne]
    omega
  simp only [encode, Nat.pow_eq, hcarry, Bool.false_eq_true, if_false]
  rw [if_neg (by omega), if_neg (by omega), Nat.toUInt64_eq, UInt64.toNat_ofNat_of_lt']
  have hfield : (q + 1075).toNat * 2 ^ 52 ≤ 2046 * 2 ^ 52 := Nat.mul_le_mul_right _ (by omega)
  show _ < 2 ^ 64
  omega

/-- The pattern of a positive integer below `2 ^ 53`: exponent field `log₂ m + 1023`, and the bits
of `m` after its leading one, shifted to the top of the fraction. The grid is `2 ^ (log₂ m - 52)`, a
fraction of one, so the quotient is exact. -/
theorem roundRatio_one_bits {m : Nat} (hm : m ≠ 0) (hlog : m.log2 ≤ 52) :
    (roundRatio m 1).bits.toNat = (m.log2 + 1022) * 2 ^ 52 + m * 2 ^ (52 - m.log2) := by
  obtain ⟨hlow, hhigh⟩ := scaled_bounds hm hlog
  have hq : max (log2Ratio m 1 - 52) (-1074) = (m.log2 : Int) - 52 := by
    rw [log2Ratio_one hm]
    omega
  have hshift : (-((m.log2 : Int) - 52)).toNat = 52 - m.log2 := by omega
  have hgrid : ((m.log2 : Int) - 52).toNat = 0 := by omega
  have hround : roundHalfEven (m * 2 ^ (52 - m.log2)) 1 = m * 2 ^ (52 - m.log2) :=
    (roundHalfEven_of_lt (by simp [Nat.mod_one])).trans (Nat.div_one _)
  simp only [roundRatio, Nat.pow_eq, hq, hshift, hgrid, Nat.pow_zero, Nat.mul_one]
  rw [hround, encode_bits hlow hhigh (by omega)]
  have hexp : ((m.log2 : Int) - 52 + 1075).toNat = m.log2 + 1023 := by omega
  rw [hexp]
  omega

/-- `2 ^ 53` starts the next binade: the rounded significand carries into the exponent. -/
theorem roundRatio_two_pow_bits : (roundRatio (2 ^ 53) 1).bits.toNat = 1076 * 2 ^ 52 := by
  decide

/-- Patterns of positive integers of at most `2 ^ 53` increase with the integer. `m < n` gives `log₂
m ≤ log₂ n`, and a larger exponent outweighs any fraction. -/
theorem roundRatio_one_bits_lt {m n : Nat} (hm : m ≠ 0) (hmn : m < n) (hn : n ≤ 2 ^ 53) :
    (roundRatio m 1).bits.toNat < (roundRatio n 1).bits.toNat := by
  have hlog : m.log2 ≤ 52 := Nat.le_of_lt_succ ((Nat.log2_lt hm).mpr (by omega))
  obtain ⟨_, hhigh⟩ := scaled_bounds hm hlog
  rw [roundRatio_one_bits hm hlog]
  by_cases htop : n = 2 ^ 53
  · rw [htop, roundRatio_two_pow_bits]
    omega
  have hn0 : n ≠ 0 := by omega
  have hlogn : n.log2 ≤ 52 := Nat.le_of_lt_succ ((Nat.log2_lt hn0).mpr (by omega))
  obtain ⟨hlown, _⟩ := scaled_bounds hn0 hlogn
  rw [roundRatio_one_bits hn0 hlogn]
  have hloglt : m.log2 ≤ n.log2 :=
    (Nat.le_log2 hn0).mpr (Nat.le_trans (Nat.log2_self_le hm) (Nat.le_of_lt hmn))
  rcases Nat.lt_or_eq_of_le hloglt with hlt | heq
  · omega
  · rw [← heq]
    have := Nat.mul_lt_mul_of_pos_right hmn (Nat.two_pow_pos (52 - m.log2))
    omega

theorem roundRatio_one_bits_bounds {m : Nat} (hm : m ≠ 0) (hm' : m ≤ 2 ^ 53) :
    0 < (roundRatio m 1).bits.toNat ∧ (roundRatio m 1).bits.toNat < 2 ^ 63 := by
  by_cases htop : m = 2 ^ 53
  · rw [htop, roundRatio_two_pow_bits]
    constructor <;> omega
  have hlog : m.log2 ≤ 52 := Nat.le_of_lt_succ ((Nat.log2_lt hm).mpr (by omega))
  have hbound := roundRatio_one_bits_lt hm (by omega : m < 2 ^ 53) (Nat.le_refl _)
  rw [roundRatio_two_pow_bits] at hbound
  refine ⟨?_, by omega⟩
  rw [roundRatio_one_bits hm hlog]
  omega

/-! ### Converting integers of magnitude at most `2 ^ 53` -/

section Exact

variable {i j : Int}

theorem ofInt_of_pos (hi : 0 < i) : ofInt i = roundRatio i.natAbs 1 := by
  simp [ofInt, Int.ne_of_gt hi, Int.not_lt.mpr (Int.le_of_lt hi), withSign]

theorem ofInt_of_neg (hi : i < 0) : ofInt i = (roundRatio i.natAbs 1).negate := by
  simp [ofInt, Int.ne_of_lt hi, hi, withSign]

theorem orderKey_ofInt_zero : (ofInt 0).orderKey = 2 ^ 63 := rfl

theorem orderKey_ofInt_of_pos (hi : 0 < i) (hb : i.natAbs ≤ 2 ^ 53) :
    (ofInt i).orderKey = (roundRatio i.natAbs 1).bits.toNat + 2 ^ 63 := by
  have hlt := (roundRatio_one_bits_bounds (by omega) hb).2
  rw [ofInt_of_pos hi, orderKey_of_negative_eq_false ((negative_eq_false_iff _).mpr hlt)]

theorem orderKey_ofInt_of_neg (hi : i < 0) (hb : i.natAbs ≤ 2 ^ 53) :
    (ofInt i).orderKey = 2 ^ 63 - 1 - (roundRatio i.natAbs 1).bits.toNat := by
  have hlt := (roundRatio_one_bits_bounds (by omega) hb).2
  rw [ofInt_of_neg hi, orderKey_negate ((negative_eq_false_iff _).mpr hlt)]

/-- Between integers of magnitude at most `2 ^ 53`, the conversion is strictly increasing in the
total order on patterns. Between two negative integers the larger magnitude has the larger pattern,
read backwards. -/
theorem orderKey_ofInt_lt (hij : i < j) (hi : i.natAbs ≤ 2 ^ 53) (hj : j.natAbs ≤ 2 ^ 53) :
    (ofInt i).orderKey < (ofInt j).orderKey := by
  rcases Int.lt_trichotomy i 0 with hi0 | rfl | hi0
  · have hbi := roundRatio_one_bits_bounds (m := i.natAbs) (by omega) hi
    rw [orderKey_ofInt_of_neg hi0 hi]
    rcases Int.lt_trichotomy j 0 with hj0 | rfl | hj0
    · have hbits := roundRatio_one_bits_lt (m := j.natAbs) (n := i.natAbs) (by omega)
        (by omega) hi
      rw [orderKey_ofInt_of_neg hj0 hj]
      omega
    · rw [orderKey_ofInt_zero]
      omega
    · rw [orderKey_ofInt_of_pos hj0 hj]
      omega
  · rw [orderKey_ofInt_zero, orderKey_ofInt_of_pos hij hj]
    have := roundRatio_one_bits_bounds (m := j.natAbs) (by omega) hj
    omega
  · have hbits := roundRatio_one_bits_lt (m := i.natAbs) (n := j.natAbs) (by omega) (by omega) hj
    rw [orderKey_ofInt_of_pos hi0 hi, orderKey_ofInt_of_pos (Int.lt_trans hi0 hij) hj]
    omega

/-- Two integers of magnitude at most `2 ^ 53` compare as their binary64 values do. -/
theorem compare_orderKey_ofInt (hi : i.natAbs ≤ 2 ^ 53) (hj : j.natAbs ≤ 2 ^ 53) :
    compare (ofInt i).orderKey (ofInt j).orderKey = compare i j := by
  rcases Int.lt_trichotomy i j with hij | rfl | hij
  · rw [Nat.compare_eq_lt.mpr (orderKey_ofInt_lt hij hi hj), Int.compare_eq_lt.mpr hij]
  · rw [Nat.compare_eq_eq.mpr rfl, Int.compare_eq_eq.mpr rfl]
  · rw [Nat.compare_eq_gt.mpr (orderKey_ofInt_lt hij hj hi), Int.compare_eq_gt.mpr hij]

end Exact

end Introspect.Binary64
