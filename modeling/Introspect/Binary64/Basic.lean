/-!
# Binary64 values

A binary64 value is a 64-bit pattern: a sign bit, eleven exponent bits and 52 fraction bits.
Two values are equal when their patterns are, so the two zeros differ and every NaN pattern is a
value of its own. A finite value has the magnitude `significand * 2 ^ exponent`, where a zero
exponent field marks the subnormal values (no hidden bit, exponent -1074).

The total order compares patterns through `orderKey`: negative patterns come first, in reverse
order of their bits, then the positive ones in order of their bits. It reads
-NaN < -∞ < negative finite < -0 < +0 < positive finite < +∞ < +NaN, and it is a linear order
on patterns (`orderKey_injective`).
-/

set_option autoImplicit false
set_option relaxedAutoImplicit false

namespace Introspect

/-- A binary64 floating-point value, held as its bit pattern. -/
structure Binary64 where
  bits : UInt64
deriving DecidableEq, Repr

namespace Binary64

/-- Whether the sign bit is set. -/
def negative (x : Binary64) : Bool := decide (x.bits.toNat ≥ Nat.pow 2 63)

/-- The eleven exponent bits, as a number. -/
def exponentField (x : Binary64) : Nat := x.bits.toNat / Nat.pow 2 52 % Nat.pow 2 11

/-- The 52 fraction bits, as a number. -/
def fraction (x : Binary64) : Nat := x.bits.toNat % Nat.pow 2 52

/-- Whether the value is not a number: all exponent bits set and a nonzero fraction. -/
def isNaN (x : Binary64) : Bool := x.exponentField == 2047 && x.fraction != 0

/-- Whether the value is an infinity. -/
def isInfinite (x : Binary64) : Bool := x.exponentField == 2047 && x.fraction == 0

/-- Whether the value is a zero of either sign. -/
def isZero (x : Binary64) : Bool := x.exponentField == 0 && x.fraction == 0

/-- The significand of a finite value: the fraction, with the hidden bit unless subnormal. -/
def significand (x : Binary64) : Nat :=
  if x.exponentField = 0 then x.fraction else Nat.pow 2 52 + x.fraction

/-- The exponent of a finite value: its magnitude is `significand * 2 ^ exponent`. -/
def exponent (x : Binary64) : Int :=
  if x.exponentField = 0 then -1074 else (x.exponentField : Int) - 1075

/-- Positive zero. -/
def zero : Binary64 := ⟨0⟩

/-- Positive infinity. -/
def infinity : Binary64 := ⟨0x7FF0000000000000⟩

/-- The quiet NaN with an empty payload and a clear sign bit. -/
def nan : Binary64 := ⟨0x7FF8000000000000⟩

/-- The same value with the sign bit flipped. -/
def negate (x : Binary64) : Binary64 := ⟨x.bits ^^^ 0x8000000000000000⟩

/-- The value, negated when `neg` holds. -/
def withSign (neg : Bool) (x : Binary64) : Binary64 := if neg then x.negate else x

/-- The position of a pattern in the total order. -/
def orderKey (x : Binary64) : Nat :=
  if x.negative then Nat.pow 2 64 - 1 - x.bits.toNat else x.bits.toNat + Nat.pow 2 63

/-- The total order on patterns. -/
def compareTotal (x y : Binary64) : Ordering := compare x.orderKey y.orderKey

theorem negative_iff (x : Binary64) : x.negative = true ↔ Nat.pow 2 63 ≤ x.bits.toNat := by
  simp [negative]

theorem orderKey_injective {x y : Binary64} (h : x.orderKey = y.orderKey) : x = y := by
  have hx := x.bits.toNat_lt
  have hy := y.bits.toNat_lt
  have hb : x.bits.toNat = y.bits.toNat := by
    unfold orderKey at h
    cases hnx : x.negative <;> cases hny : y.negative <;>
      simp only [hnx, hny, Bool.false_eq_true, if_false, if_true, Nat.pow_eq] at h <;>
      simp only [negative, decide_eq_true_eq, decide_eq_false_iff_not, Nat.pow_eq] at hnx hny <;>
      omega
  cases x; cases y
  simp only [mk.injEq]
  exact UInt64.toNat_inj.mp hb

theorem compareTotal_eq_eq_iff (x y : Binary64) : x.compareTotal y = .eq ↔ x = y := by
  unfold compareTotal
  rw [Nat.compare_eq_eq]
  exact ⟨orderKey_injective, fun h => h ▸ rfl⟩

end Binary64

end Introspect
