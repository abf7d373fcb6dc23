import Introspect.Text.Basic

/-!
# Blank characters

The blank characters are those of the Unicode property White_Space: tab through carriage return,
the space, next line, the no-break space, the ogham space mark, the spaces U+2000 to U+200A, the
line and paragraph separators, the narrow no-break space, the medium mathematical space and the
ideographic space, 25 code points in all. The zero-width space U+200B and the byte order mark
U+FEFF are not blank.

Trimming removes blank characters from one or both ends of a text, which is a list of
characters here so that trims are `dropWhile` and their lemmas are the list library's.
-/

set_option autoImplicit false
set_option relaxedAutoImplicit false

namespace Introspect.Text

/-- The code points of the Unicode property White_Space. -/
def blankSet : CodeSet := ⟨[
    (0x0009, 0x000D), (0x0020, 0x0020), (0x0085, 0x0085), (0x00A0, 0x00A0), (0x1680, 0x1680),
    (0x2000, 0x200A), (0x2028, 0x2029), (0x202F, 0x202F), (0x205F, 0x205F), (0x3000, 0x3000)]⟩

/-- Whether a character is blank (Unicode White_Space). -/
def isBlank (c : Char) : Bool := blankSet.contains c

/-- The text without its leading blank characters. -/
def trimStart (cs : List Char) : List Char := cs.dropWhile isBlank

/-- The text without its trailing blank characters. -/
def trimEnd (cs : List Char) : List Char := (cs.reverse.dropWhile isBlank).reverse

/-- The text without blank characters at either end. -/
def trim (cs : List Char) : List Char := trimEnd (trimStart cs)

/-- The four blanks that core's `Char.isWhitespace` knows are blank here too. -/
theorem isBlank_of_isWhitespace (c : Char) (h : c.isWhitespace = true) : isBlank c = true := by
  simp only [Char.isWhitespace, Bool.or_eq_true, decide_eq_true_eq] at h
  rcases h with ((h | h) | h) | h <;> subst h <;> decide

theorem trimEnd_append_blank (cs : List Char) (c : Char) (h : isBlank c = true) :
    trimEnd (cs ++ [c]) = trimEnd cs := by
  simp [trimEnd, h]

theorem trimStart_cons_blank (cs : List Char) (c : Char) (h : isBlank c = true) :
    trimStart (c :: cs) = trimStart cs := by
  simp [trimStart, h]

theorem trim_nil : trim [] = [] := rfl

/-- Trimming keeps a stretch of the text: it only removes characters at the ends. -/
theorem trim_infix (cs : List Char) : trim cs <:+: cs := by
  have hstart : trimStart cs <:+ cs := List.dropWhile_suffix _
  have hend : trimEnd (trimStart cs) <+: trimStart cs := by
    rw [trimEnd, ← List.reverse_suffix, List.reverse_reverse]
    exact List.dropWhile_suffix _
  exact hend.isInfix.trans hstart.isInfix

end Introspect.Text
