import Introspect.Decimal.Basic

/-!
# Shortest decimals

Every positive binary value `m * 2 ^ q` owns an interval of reals that round to it: half the gap
to each neighbour on either side, both ends included when `m` is even (ties go to the even
significand). The shortest decimal of the value is the decimal in that interval with the fewest
significant digits; of two such, the nearer to the value, and of two equally near, the upper.

The search runs over grids: with the value below `10 ^ k` and at least `10 ^ (k - 1)`, the grid of
`n` digits is `10 ^ (k - n)`. If some point of a grid lies in the interval, so does one of the
value's two neighbours on that grid, so only those two are tried, for `n = 1, 2, …, 17`. Seventeen
digits always suffice for a binary64 value; past them the exact value is used.
-/

set_option autoImplicit false
set_option relaxedAutoImplicit false

namespace Introspect

namespace Decimal

/-- The reals `low * 2 ^ unit ≤ x ≤ high * 2 ^ unit` (strict when not `closed`) that round to a
binary value. -/
structure Interval where
  low : Nat
  high : Nat
  unit : Int
  closed : Bool

/-- Whether a decimal lies in an interval. -/
def Interval.contains (r : Interval) (d : Decimal) : Bool :=
  let below := compareScaled d.digits d.exponent r.low r.unit
  let above := compareScaled d.digits d.exponent r.high r.unit
  if r.closed then below != .lt && above != .gt else below == .gt && above == .lt

/-- The interval of `m * 2 ^ q`. Its lower half gap is half the upper one when `narrowBelow`, as
at the lowest significand of a binade, where the neighbour below lies on a finer grid. -/
def roundingInterval (m : Nat) (q : Int) (narrowBelow : Bool) : Interval where
  low := 4 * m - (if narrowBelow then 1 else 2)
  high := 4 * m + 2
  unit := q - 2
  closed := m % 2 == 0

/-- The least `k` with `m * 2 ^ q < 10 ^ k`, for positive `m`. An estimate from the binary
exponent is off by at most one, and the five exponents around it are tried in order. -/
def decimalMagnitude (m : Nat) (q : Int) : Int :=
  let estimate : Int := ((m.log2 : Int) + q) * 30103 / 100000
  let tries := (List.range 5).map fun (i : Nat) => estimate - 1 + (i : Int)
  (tries.find? fun k => compareScaled 1 k m q == .gt).getD (estimate + 4)

/-- The point of the grid `10 ^ e` in the interval that is nearest to `m * 2 ^ q`, of two equally
near the upper, if the grid has a point there. -/
def onGrid (m : Nat) (q : Int) (r : Interval) (e : Int) : Option Decimal :=
  let d := m * Nat.pow 2 q.toNat * Nat.pow 10 (-e).toNat /
    (Nat.pow 2 (-q).toNat * Nat.pow 10 e.toNat)
  let lower : Decimal := ⟨d, e⟩
  let upper : Decimal := ⟨d + 1, e⟩
  match r.contains lower, r.contains upper with
  | true, true => if compareScaled (2 * d + 1) e (2 * m) q == .gt then some lower else some upper
  | true, false => some lower
  | false, true => some upper
  | false, false => none

/-- The exact decimal value of `m * 2 ^ q`. -/
def exactBinary (m : Nat) (q : Int) : Decimal :=
  if 0 ≤ q then ⟨m * Nat.pow 2 q.toNat, 0⟩ else ⟨m * Nat.pow 5 (-q).toNat, q⟩

/-- The shortest decimal of the positive value `m * 2 ^ q`, without trailing zeros. -/
def shortest (m : Nat) (q : Int) (narrowBelow : Bool) : Decimal :=
  let r := roundingInterval m q narrowBelow
  let k := decimalMagnitude m q
  let grids := (List.range 17).map fun n => k - (n + 1 : Nat)
  let found := grids.findSome? (onGrid m q r)
  (found.getD (exactBinary m q)).normalize

end Decimal

end Introspect
