/-!
# Texts as lists of characters

A text is a list of characters here, so that its operations are list recursion and their lemmas
are the list library's. This module holds what the rest of the library reads texts with.

Sets of code points. A set is written as a list of closed ranges `(first, last)`. The character
classes of this library (blank, hidden and extending characters) are such lists, generated from
the Unicode Character Database in increasing order and without overlap. Membership only needs
each range to be closed (`CodeSet.mem_iff`).

Code point order. Texts are ordered lexicographically by code points: the first differing
character decides, and a proper prefix comes first. For texts in UTF-8 this is also the order of
their bytes.

Searching. `firstIndex? pat cs` is the position of the first occurrence of `pat` in `cs`: the
least `i` such that `pat` is a prefix of `cs.drop i`. Positions count characters.

Byte positions. A text is also measured in the bytes of its UTF-8 encoding, in which a character
takes one to four bytes (`Char.utf8Size`). A byte position can cut a text only where it falls
between two characters, that is at the byte length of a prefix. `dropBytes? n cs` is the text
after its first `n` bytes and `sliceBytes? cs i j` the text between bytes `i` and `j`; both are
`none` when a position falls inside a character or past the end, and a slice also when `j < i`.
Cutting at the byte lengths of a prefix gives the next part back (`sliceBytes?_append`), so a
position that a scan has counted in bytes reads the characters it has passed.
-/

set_option autoImplicit false
set_option relaxedAutoImplicit false

namespace Introspect.Text

/-! ### Sets of code points -/

/-- A set of code points, as a list of closed ranges `(first, last)`. -/
structure CodeSet where
  ranges : List (Nat × Nat)

namespace CodeSet

/-- Whether the character's code point lies in one of the ranges. -/
def contains (s : CodeSet) (c : Char) : Bool :=
  s.ranges.any (fun r => r.1 ≤ c.toNat && c.toNat ≤ r.2)

theorem mem_iff (s : CodeSet) (c : Char) :
    s.contains c = true ↔ ∃ r ∈ s.ranges, r.1 ≤ c.toNat ∧ c.toNat ≤ r.2 := by
  simp [contains]

end CodeSet

/-! ### Code point order -/

/-- Lexicographic comparison by code points. -/
def compareCodePoints : List Char → List Char → Ordering
  | [], [] => .eq
  | [], _ :: _ => .lt
  | _ :: _, [] => .gt
  | a :: as, b :: bs =>
    match compare a.toNat b.toNat with
    | .eq => compareCodePoints as bs
    | o => o

theorem compareCodePoints_self (cs : List Char) : compareCodePoints cs cs = .eq := by
  induction cs with
  | nil => rfl
  | cons c cs ih => simp [compareCodePoints, ih]

/-! ### Searching -/

/-- The position of the first occurrence of a pattern, if it occurs. -/
def firstIndex? (pat : List Char) : List Char → Option Nat
  | [] => if pat.isEmpty then some 0 else none
  | c :: cs => if pat.isPrefixOf (c :: cs) then some 0 else (firstIndex? pat cs).map (· + 1)

theorem firstIndex?_cons_of_not_prefix (pat : List Char) (c : Char) (cs : List Char)
    (h : pat.isPrefixOf (c :: cs) = false) :
    firstIndex? pat (c :: cs) = (firstIndex? pat cs).map (· + 1) := by
  simp [firstIndex?, h]

/-! ### Byte positions -/

/-- The number of bytes of a text in UTF-8. -/
def byteLength (cs : List Char) : Nat := (cs.map Char.utf8Size).foldr (· + ·) 0

/-- The text after its first `n` bytes, when `n` falls between two characters. -/
def dropBytes? (n : Nat) : List Char → Option (List Char)
  | [] => if n = 0 then some [] else none
  | c :: cs =>
    if n = 0 then some (c :: cs)
    else if c.utf8Size ≤ n then dropBytes? (n - c.utf8Size) cs else none

/-- The first `n` bytes of a text, when `n` falls between two characters. -/
def takeBytes? (n : Nat) : List Char → Option (List Char)
  | [] => if n = 0 then some [] else none
  | c :: cs =>
    if n = 0 then some []
    else if c.utf8Size ≤ n then (takeBytes? (n - c.utf8Size) cs).map (c :: ·) else none

/-- The text between bytes `start` and `stop`. -/
def sliceBytes? (cs : List Char) (start stop : Nat) : Option (List Char) :=
  if start ≤ stop then (dropBytes? start cs).bind (takeBytes? (stop - start)) else none

@[simp] theorem byteLength_nil : byteLength [] = 0 := rfl

@[simp] theorem byteLength_cons (c : Char) (cs : List Char) :
    byteLength (c :: cs) = c.utf8Size + byteLength cs := by
  simp [byteLength]

@[simp] theorem byteLength_append (cs ds : List Char) :
    byteLength (cs ++ ds) = byteLength cs + byteLength ds := by
  induction cs with
  | nil => simp
  | cons c cs ih => simp [ih, Nat.add_assoc]

@[simp] theorem dropBytes?_zero (cs : List Char) : dropBytes? 0 cs = some cs := by
  cases cs <;> simp [dropBytes?]

@[simp] theorem takeBytes?_zero (cs : List Char) : takeBytes? 0 cs = some [] := by
  cases cs <;> simp [takeBytes?]

theorem dropBytes?_byteLength_append (pre rest : List Char) (n : Nat) :
    dropBytes? (byteLength pre + n) (pre ++ rest) = dropBytes? n rest := by
  induction pre with
  | nil => simp
  | cons c pre ih =>
    have hc := c.utf8Size_pos
    simp only [byteLength_cons, List.cons_append, dropBytes?]
    rw [if_neg (by omega), if_pos (by omega), ← ih]
    congr 1
    omega

theorem takeBytes?_byteLength_append (pre rest : List Char) :
    takeBytes? (byteLength pre) (pre ++ rest) = some pre := by
  induction pre with
  | nil => simp
  | cons c pre ih =>
    have hc := c.utf8Size_pos
    simp only [byteLength_cons, List.cons_append, takeBytes?]
    rw [if_neg (by omega), if_pos (by omega), Nat.add_sub_cancel_left, ih]
    rfl

/-- The bytes a prefix occupies are the whole of what follows it is cut from. -/
theorem dropBytes?_append (pre rest : List Char) :
    dropBytes? (byteLength pre) (pre ++ rest) = some rest := by
  simpa using dropBytes?_byteLength_append pre rest 0

/-- Slicing a text between the byte lengths of `pre` and of `pre ++ mid` reads `mid`. -/
theorem sliceBytes?_append (pre mid rest : List Char) :
    sliceBytes? (pre ++ mid ++ rest) (byteLength pre) (byteLength pre + byteLength mid) =
      some mid := by
  rw [sliceBytes?, if_pos (Nat.le_add_right _ _), List.append_assoc, dropBytes?_append,
    Nat.add_sub_cancel_left]
  exact takeBytes?_byteLength_append mid rest

end Introspect.Text
