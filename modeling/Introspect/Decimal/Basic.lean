/-!
# Decimals

A decimal is a number `digits * 10 ^ exponent`. `compareScaled` compares such a number with a
binary one, `b * 2 ^ j`, by clearing both negative exponents, so that all comparisons between
decimals and binary64 values are exact.

Positional notation writes the digits with a point and never an exponent: zeros are appended for
a nonnegative exponent, and a number below one is written `0.` followed by zeros and the digits.
-/

set_option autoImplicit false
set_option relaxedAutoImplicit false

namespace Introspect

/-- A decimal number `digits * 10 ^ exponent`. -/
structure Decimal where
  digits : Nat
  exponent : Int
deriving DecidableEq, Repr

namespace Decimal

/-- Compares `a * 10 ^ i` with `b * 2 ^ j`. -/
def compareScaled (a : Nat) (i : Int) (b : Nat) (j : Int) : Ordering :=
  compare (a * Nat.pow 10 i.toNat * Nat.pow 2 (-j).toNat)
    (b * Nat.pow 2 j.toNat * Nat.pow 10 (-i).toNat)

/-- The decimal without trailing zeros in its digits; zero is left as it is. -/
def normalize (d : Decimal) : Decimal :=
  if h : d.digits ≠ 0 ∧ d.digits % 10 = 0 then
    normalize ⟨d.digits / 10, d.exponent + 1⟩
  else d
termination_by d.digits
decreasing_by
  have := Nat.pos_of_ne_zero h.1
  omega

/-- `n` zeros. -/
def zeros (n : Nat) : List Char := List.replicate n '0'

/-- The digits with a point, and without an exponent. -/
def positional (d : Decimal) : String :=
  let ds := Nat.toDigits 10 d.digits
  if 0 ≤ d.exponent then String.ofList (ds ++ zeros d.exponent.toNat)
  else
    let point := (ds.length : Int) + d.exponent
    if 0 < point then String.ofList (ds.take point.toNat ++ '.' :: ds.drop point.toNat)
    else String.ofList ('0' :: '.' :: zeros (-point).toNat ++ ds)

theorem normalize_digits_mod (d : Decimal) (h : d.normalize.digits ≠ 0) :
    d.normalize.digits % 10 ≠ 0 := by
  induction d using normalize.induct with
  | case1 d h' ih =>
    rw [normalize, dif_pos h'] at h ⊢
    exact ih h
  | case2 d h' =>
    rw [normalize, dif_neg h'] at h ⊢
    intro hm
    exact h' ⟨h, hm⟩

end Decimal

end Introspect
