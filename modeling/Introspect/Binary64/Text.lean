import Introspect.Binary64.Round
import Introspect.Decimal.Shortest

/-!
# Binary64 values as decimal text

A decimal text is an optional sign followed by a word or a number, with nothing after it. The
words are `inf`, `infinity` and `nan`, in any mix of cases. A number is a run of digits with at
most one point among them and at least one digit in all, then an optional exponent: `e` or `E`,
an optional sign and at least one digit. The empty text is not a number.

The value of a number is the binary64 value nearest to it (`roundRatio`), ties to the even
significand; a minus sign flips the sign bit of the result, zero and NaN included. Decimals far
out of range are settled before any power is built: one of `10 ^ 310` or more is infinite, one
below `10 ^ -331` is zero, as their nearest values are.

A binary64 value is displayed as its shortest decimal in positional notation, so that the text
reads back as the same value and has no exponent however large or small the value is. A minus
sign comes first when the sign bit is set, the zeros included (`-0`). Every NaN is written `NaN`,
the infinities `inf` and `-inf`.
-/

set_option autoImplicit false
set_option relaxedAutoImplicit false

namespace Introspect

namespace Binary64

/-! ### Reading -/

/-- The leading decimal digits of a text and what follows them. -/
def spanDigits (cs : List Char) : List Char × List Char :=
  (cs.takeWhile Char.isDigit, cs.dropWhile Char.isDigit)

/-- The number that a list of decimal digits spells. -/
def digitsValue (ds : List Char) : Nat :=
  ds.foldl (fun acc d => 10 * acc + (d.toNat - '0'.toNat)) 0

/-- The number of decimal digits of a positive number. -/
def decimalLength (m : Nat) : Nat := (Nat.toDigits 10 m).length

/-- The binary64 value nearest to `m * 10 ^ e`. -/
def ofDecimal (m : Nat) (e : Int) : Binary64 :=
  if m = 0 then zero
  else if 310 < e + decimalLength m then infinity
  else if e + decimalLength m < -330 then zero
  else roundRatio (m * Nat.pow 10 e.toNat) (Nat.pow 10 (-e).toNat)

/-- Reads an optional exponent part: nothing at all, or `e`/`E`, a sign and digits. -/
def readExponent : List Char → Option Int
  | [] => some 0
  | c :: rest =>
    if c = 'e' ∨ c = 'E' then
      let (neg, body) : Bool × List Char := match rest with
        | '-' :: r => (true, r)
        | '+' :: r => (false, r)
        | r => (false, r)
      let (ds, tail) := spanDigits body
      if ds.isEmpty || !tail.isEmpty then none
      else some (if neg then -(digitsValue ds : Int) else digitsValue ds)
    else none

/-- Reads a text without its sign. -/
def readMagnitude (cs : List Char) : Option Binary64 :=
  let lower := cs.map Char.toLower
  if lower = "inf".toList ∨ lower = "infinity".toList then some infinity
  else if lower = "nan".toList then some nan
  else
    let (whole, rest) := spanDigits cs
    let (frac, rest) : List Char × List Char := match rest with
      | '.' :: r => spanDigits r
      | r => ([], r)
    if whole.isEmpty && frac.isEmpty then none
    else (readExponent rest).map fun e =>
      ofDecimal (digitsValue (whole ++ frac)) (e - frac.length)

/-- The value of a decimal text, or `none` when the text is not one. -/
def ofText? (s : String) : Option Binary64 :=
  match s.toList with
  | '-' :: r => (readMagnitude r).map negate
  | '+' :: r => readMagnitude r
  | r => readMagnitude r

/-! ### Display -/

/-- Whether the gap to the value below is half the gap above: a zero fraction above the first
normal binade. -/
def narrowBelow (x : Binary64) : Bool := x.fraction == 0 && 1 < x.exponentField

/-- The shortest decimal of a finite nonzero value's magnitude. -/
def shortestDecimal (x : Binary64) : Decimal :=
  Decimal.shortest x.significand x.exponent x.narrowBelow

/-- The display text of a value. -/
def toText (x : Binary64) : String :=
  if x.isNaN then "NaN"
  else
    let sign := if x.negative then "-" else ""
    if x.isInfinite then sign ++ "inf"
    else if x.isZero then sign ++ "0"
    else sign ++ x.shortestDecimal.positional

end Binary64

end Introspect
