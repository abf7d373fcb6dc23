import Introspect.Text.Blank
import Introspect.Text.Basic

/-!
# Top-level pieces of a parameter list

A parameter list is cut at every comma that stands outside parentheses, and each piece is trimmed
of blank characters. The list is first read as lexemes: a token for each parenthesis and each
comma, one text token for each longest stretch of other characters, each with the bytes it covers
(`lex`). The splitter then walks the lexemes with a nesting depth (`Scan`): an opening
parenthesis goes one level deeper and a closing one goes one level up, but never above the top
level, so a stray `)` changes nothing; a comma at the top level ends the current piece, which is
cut out of the list by its byte positions. Text tokens and lexemes the lexer could not read are
passed over.

A list that is blank has no pieces at all; otherwise there is one more piece than there are
top-level commas, and pieces may be empty.
-/

set_option autoImplicit false
set_option relaxedAutoImplicit false

namespace Introspect.Signature

/-- The tokens of a parameter list. -/
inductive Token where
  | lParen
  | rParen
  | comma
  | text
deriving DecidableEq, Repr

/-- The bytes `[start, stop)` of a text that a lexeme covers. -/
structure Span where
  start : Nat
  stop : Nat
deriving DecidableEq, Repr

/-- A token, or `none` for input the lexer could not read, with the bytes it covers. -/
abbrev Lexeme := Option Token × Span

/-- The token a character belongs to: a parenthesis or a comma is a token of its own, any other
character is part of a text token. -/
def Token.ofChar (c : Char) : Token :=
  if c = '(' then .lParen else if c = ')' then .rParen else if c = ',' then .comma else .text

/-- The lexemes of a text whose first character is at byte `offset`: a one-byte token for each
parenthesis and comma, and a text token for each longest stretch of other characters. -/
def lexFrom (offset : Nat) : List Char → List Lexeme
  | [] => []
  | c :: cs =>
    let rest := lexFrom (offset + c.utf8Size) cs
    match Token.ofChar c with
    | .text =>
      match rest with
      | (some .text, span) :: more => (some .text, ⟨offset, span.stop⟩) :: more
      | _ => (some .text, ⟨offset, offset + c.utf8Size⟩) :: rest
    | t => (some t, ⟨offset, offset + 1⟩) :: rest

/-- The lexemes of a parameter list. -/
def lex (body : String) : List Lexeme := lexFrom 0 body.toList

/-- The state of the splitter: the nesting depth, the byte at which the current piece starts,
and the pieces cut so far, trimmed. -/
structure Scan where
  depth : Nat
  start : Nat
  pieces : List String

/-- The splitter after one lexeme of `body`. A comma at depth zero cuts the current piece out of
`body` by bytes, an empty piece should the cut fall inside a character. -/
def Scan.step (body : List Char) (s : Scan) : Lexeme → Scan
  | (some .lParen, _) => { s with depth := s.depth + 1 }
  | (some .rParen, _) => if 0 < s.depth then { s with depth := s.depth - 1 } else s
  | (some .comma, span) =>
    if s.depth = 0 then
      let piece := (Text.sliceBytes? body s.start span.start).getD []
      { s with pieces := s.pieces ++ [String.ofList (Text.trim piece)], start := span.stop }
    else s
  | (some .text, _) => s
  | (none, _) => s

/-- The pieces once every lexeme is read: the last piece runs from the last cut to the end. -/
def Scan.finish (body : List Char) (s : Scan) : List String :=
  s.pieces ++ [String.ofList (Text.trim ((Text.dropBytes? s.start body).getD []))]

/-- The trimmed top-level pieces of `body`, read from its lexemes; none for a blank body. -/
def splitLexemes (body : String) (lexemes : List Lexeme) : List String :=
  if (Text.trim body.toList).isEmpty then []
  else (lexemes.foldl (Scan.step body.toList) ⟨0, 0, []⟩).finish body.toList

/-- The trimmed top-level pieces of a parameter list, none for a blank list. -/
def splitTopLevel (body : String) : List String := splitLexemes body (lex body)

end Introspect.Signature
