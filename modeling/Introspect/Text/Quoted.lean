import Introspect.Text.Printable
import Introspect.Text.Extend

/-!
# Quoted text

Messages show a text between double quotes, with escapes that make blanks, controls and marks
visible. Inside the quotes NUL, tab, carriage return, line feed, the backslash and the double
quote have two-character escapes, and the apostrophe stands for itself. Every extending character
and every character that is not printable is written as a backslash, `u` and its code point in
lower-case hexadecimal without leading zeros, between braces. Every other character stands for
itself.
-/

set_option autoImplicit false
set_option relaxedAutoImplicit false

namespace Introspect.Text

/-- Lower-case hexadecimal digits of a number, without leading zeros. -/
def hexDigits (n : Nat) : List Char := Nat.toDigits 16 n

/-- The escape that names a character by its code point. -/
def codePointEscape (c : Char) : List Char :=
  ['\\', 'u', '\x7b'] ++ hexDigits c.toNat ++ ['\x7d']

/-- How one character is written between quotes. -/
def escapeChar (c : Char) : List Char :=
  match c with
  | '\x00' => ['\\', '0']
  | '\t' => ['\\', 't']
  | '\r' => ['\\', 'r']
  | '\n' => ['\\', 'n']
  | '\\' => ['\\', '\\']
  | '"' => ['\\', '"']
  | c => if isExtending c || !isPrintable c then codePointEscape c else [c]

/-- The characters between the quotes. -/
def escapeAll (cs : List Char) : List Char := cs.flatMap escapeChar

/-- A text between double quotes, each character escaped by `escapeChar`. -/
def quote (s : String) : String :=
  String.ofList ('"' :: escapeAll s.toList ++ ['"'])

theorem escapeAll_append (a b : List Char) : escapeAll (a ++ b) = escapeAll a ++ escapeAll b := by
  simp [escapeAll]

end Introspect.Text
