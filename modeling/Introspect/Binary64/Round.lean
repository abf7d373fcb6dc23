import Introspect.Binary64.Basic

/-!
# Rounding to binary64

`roundRatio num den` is the binary64 value nearest to the positive fraction `num / den`. Of two
equally near values it takes the one with an even significand; a magnitude of `2 ^ 1024` or more
after rounding becomes infinity, and one below half the least subnormal becomes zero. Converting
an integer and reading a decimal both round through it, so they round alike.

The rounding works on exact naturals: the binary exponent `e` of the fraction fixes the grid
`2 ^ q` with `q = max (e - 52) (-1074)`, the quotient by the grid is rounded half to even
(`roundHalfEven`), and `encode` packs the result, carrying into the next binade when rounding
reaches `2 ^ 53`.
-/

set_option autoImplicit false
set_option relaxedAutoImplicit false

namespace Introspect

namespace Binary64

/-- Whether `num / den ≥ 2 ^ e`. -/
def atLeastPow2 (num den : Nat) (e : Int) : Bool :=
  decide (den * Nat.pow 2 e.toNat ≤ num * Nat.pow 2 (-e).toNat)

/-- The binary exponent `⌊log₂ (num / den)⌋` of a positive fraction. -/
def log2Ratio (num den : Nat) : Int :=
  let e : Int := (num.log2 : Int) - den.log2
  if atLeastPow2 num den e then e else e - 1

/-- The quotient `a / b` rounded to the nearest natural number, a tie to the even one. -/
def roundHalfEven (a b : Nat) : Nat :=
  let q := a / b
  let r := a % b
  if 2 * r < b then q else if b < 2 * r then q + 1 else q + q % 2

/-- The positive value `n * 2 ^ q`, for a rounded significand `n ≤ 2 ^ 53` that lies below
`2 ^ 52` only on the subnormal grid `q = -1074`. -/
def encode (n : Nat) (q : Int) : Binary64 :=
  let carry := n == Nat.pow 2 53
  let n := if carry then Nat.pow 2 52 else n
  let q := if carry then q + 1 else q
  if 971 < q then infinity
  else if n < Nat.pow 2 52 then ⟨n.toUInt64⟩
  else ⟨((q + 1075).toNat * Nat.pow 2 52 + (n - Nat.pow 2 52)).toUInt64⟩

/-- The binary64 value nearest to `num / den`, for positive `num` and `den`. -/
def roundRatio (num den : Nat) : Binary64 :=
  let q := max (log2Ratio num den - 52) (-1074)
  encode (roundHalfEven (num * Nat.pow 2 (-q).toNat) (den * Nat.pow 2 q.toNat)) q

/-- The binary64 value nearest to an integer; zero becomes positive zero. -/
def ofInt (i : Int) : Binary64 :=
  if i = 0 then zero else withSign (decide (i < 0)) (roundRatio i.natAbs 1)

theorem roundHalfEven_of_lt {a b : Nat} (h : 2 * (a % b) < b) : roundHalfEven a b = a / b := by
  simp [roundHalfEven, h]

end Binary64

end Introspect
