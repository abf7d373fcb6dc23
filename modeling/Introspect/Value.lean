import Introspect.Binary64.Text
import Introspect.Binary64.Round
import Introspect.Text.Basic

/-!
# Cell values

A cell of a catalog listing holds nothing (null), a truth value, a 64-bit integer, a binary64
value or a text.

Two cells are the same key when they have the same kind and the same payload, binary64 values
compared by bits: `1` and `1.0` are different keys, so are `0.0` and `-0.0`, and a NaN is the
same key as itself. This is the equality of `Value`, so grouping by a column groups by it.

Cells sort by kind first, null before truth values before numbers before texts. Within a kind:
`false` before `true`, integers by value, binary64 values by the total order on patterns, texts
by code points. An integer and a binary64 value compare as the integer rounded to the nearest
binary64 value against the other; above `2 ^ 53` that rounding can make two different integers
equal to the same binary64 value, so the sort order is not transitive in its ties there.
-/

set_option autoImplicit false
set_option relaxedAutoImplicit false

namespace Introspect

/-- The content of one cell. -/
inductive Value where
  | null
  | bool (b : Bool)
  | int (i : Int64)
  | float (x : Binary64)
  | text (s : String)
deriving DecidableEq, Repr

namespace Value

/-- The kind of a cell, in sort order: null, truth value, number, text. -/
def rank : Value → Nat
  | .null => 0
  | .bool _ => 1
  | .int _ => 2
  | .float _ => 2
  | .text _ => 3

/-- The sort order of cells. -/
def compare : Value → Value → Ordering
  | .bool a, .bool b => Ord.compare a.toNat b.toNat
  | .int a, .int b => Ord.compare a.toInt b.toInt
  | .float a, .float b => a.compareTotal b
  | .int a, .float b => (Binary64.ofInt a.toInt).compareTotal b
  | .float a, .int b => a.compareTotal (Binary64.ofInt b.toInt)
  | .text a, .text b => Text.compareCodePoints a.toList b.toList
  | a, b => Ord.compare a.rank b.rank

instance : Ord Value := ⟨Value.compare⟩

/-- The display text of a cell: `NULL`, `true`/`false`, the decimal integer, the binary64 display
text, or the text itself without quotes. -/
def display : Value → String
  | .null => "NULL"
  | .bool b => if b then "true" else "false"
  | .int i => toString i.toInt
  | .float x => x.toText
  | .text s => s

/-- The text of a text cell. -/
def asText? : Value → Option String
  | .text s => some s
  | _ => none

/-- Only a text cell has a text, even where another cell displays the same. -/
theorem asText?_eq_some_iff {v : Value} {s : String} : v.asText? = some s ↔ v = .text s := by
  cases v <;> simp [asText?]

/-- The integer of an integer cell. -/
def asInt? : Value → Option Int64
  | .int i => some i
  | _ => none

/-- Whether the cell is null. -/
def isNull : Value → Bool
  | .null => true
  | _ => false

theorem compare_self (v : Value) : v.compare v = .eq := by
  cases v <;> simp [compare, Binary64.compareTotal, Text.compareCodePoints_self]

end Value

end Introspect
