import Introspect.Signature.Split

/-!
# The splitter reads characters

`splitLexemes` walks lexemes and cuts the parameter list at byte positions. Its result is the
character-level reading of the list (`topLevelPieces`): scan the characters with a depth that an
opening parenthesis raises and a closing one lowers, but never below zero, cut at the commas met
at depth zero, and trim every piece. This holds for every lexer that gives each parenthesis and
comma a token of its own, in order and with the one byte it occupies, and yields no other such
token (`LexesPunctuation`); `lex` is one (`lexesPunctuation_lex`).

The reading has one piece more than the list has top-level commas (`length_cutTopLevel`), its
pieces are stretches of the list, and the untrimmed pieces joined with commas give the list back
(`intercalate_cutTopLevel`).

The proof is a simulation over the characters. Once the splitter has read the punctuation of
`pre ++ cur`, where `pre` ends at its last cut, its current piece starts at the byte length of
`pre`; every further character moves it as it moves the character-level reading, and at the end
the bytes from that start are `cur` and what follows (`finish_foldl_punctuation`).
-/

set_option autoImplicit false
set_option relaxedAutoImplicit false

namespace Introspect.Signature

/-! ### The character-level reading -/

/-- The nesting depth after a character; a closing parenthesis never goes below zero. -/
def stepDepth (depth : Nat) (c : Char) : Nat :=
  if c = '(' then depth + 1 else if c = ')' then depth - 1 else depth

/-- `cur` put in front of the first piece. -/
def extendFirst (cur : List Char) : List (List Char) → List (List Char)
  | [] => [cur]
  | p :: ps => (cur ++ p) :: ps

/-- The untrimmed pieces of a text between its commas at depth zero, `depth` being the depth at
the start. -/
def cutTopLevel (depth : Nat) : List Char → List (List Char)
  | [] => [[]]
  | c :: cs =>
    if c = ',' ∧ depth = 0 then [] :: cutTopLevel 0 cs
    else extendFirst [c] (cutTopLevel (stepDepth depth c) cs)

/-- The number of commas at depth zero, `depth` being the depth at the start. -/
def topLevelCommas (depth : Nat) : List Char → Nat
  | [] => 0
  | c :: cs =>
    if c = ',' ∧ depth = 0 then topLevelCommas 0 cs + 1
    else topLevelCommas (stepDepth depth c) cs

/-- The character-level reading of a parameter list: no pieces when it is blank, otherwise its
top-level pieces, trimmed. -/
def topLevelPieces (body : String) : List String :=
  if (Text.trim body.toList).isEmpty then []
  else (cutTopLevel 0 body.toList).map fun p => String.ofList (Text.trim p)

theorem extendFirst_ne_nil (cur : List Char) (ps : List (List Char)) : extendFirst cur ps ≠ [] := by
  cases ps <;> simp [extendFirst]

theorem extendFirst_nil {ps : List (List Char)} (h : ps ≠ []) : extendFirst [] ps = ps := by
  cases ps with
  | nil => exact absurd rfl h
  | cons p ps => rfl

theorem extendFirst_extendFirst (cur more : List Char) (ps : List (List Char)) :
    extendFirst cur (extendFirst more ps) = extendFirst (cur ++ more) ps := by
  cases ps <;> simp [extendFirst]

theorem length_extendFirst (cur : List Char) {ps : List (List Char)} (h : ps ≠ []) :
    (extendFirst cur ps).length = ps.length := by
  cases ps with
  | nil => exact absurd rfl h
  | cons p ps => rfl

theorem intercalate_extendFirst (sep cur : List Char) {ps : List (List Char)} (h : ps ≠ []) :
    sep.intercalate (extendFirst cur ps) = cur ++ sep.intercalate ps := by
  cases ps with
  | nil => exact absurd rfl h
  | cons p ps => cases ps <;> simp [extendFirst]

theorem cutTopLevel_ne_nil (depth : Nat) (cs : List Char) : cutTopLevel depth cs ≠ [] := by
  cases cs with
  | nil => simp [cutTopLevel]
  | cons c cs =>
    unfold cutTopLevel
    split
    · simp
    · exact extendFirst_ne_nil _ _

theorem stepDepth_of_ne {depth : Nat} {c : Char} (h₁ : c ≠ '(') (h₂ : c ≠ ')') :
    stepDepth depth c = depth := by
  simp [stepDepth, h₁, h₂]

/-- One piece more than there are commas at depth zero. -/
theorem length_cutTopLevel (depth : Nat) (cs : List Char) :
    (cutTopLevel depth cs).length = topLevelCommas depth cs + 1 := by
  induction cs generalizing depth with
  | nil => rfl
  | cons c cs ih =>
    by_cases hcut : c = ',' ∧ depth = 0
    · simp [cutTopLevel, topLevelCommas, hcut, ih]
    · simp only [cutTopLevel, topLevelCommas, if_neg hcut]
      rw [length_extendFirst _ (cutTopLevel_ne_nil _ _), ih]

/-- The pieces joined with commas give the text back. -/
theorem intercalate_cutTopLevel (depth : Nat) (cs : List Char) :
    [','].intercalate (cutTopLevel depth cs) = cs := by
  induction cs generalizing depth with
  | nil => simp [cutTopLevel]
  | cons c cs ih =>
    by_cases hcut : c = ',' ∧ depth = 0
    · rw [cutTopLevel, if_pos hcut, List.intercalate_cons_of_ne_nil (cutTopLevel_ne_nil 0 cs),
        ih, hcut.1]
      rfl
    · rw [cutTopLevel, if_neg hcut, intercalate_extendFirst _ _ (cutTopLevel_ne_nil _ _), ih]
      rfl

theorem infix_intercalate_of_mem (sep p : List Char) (ps : List (List Char)) (h : p ∈ ps) :
    p <:+: sep.intercalate ps := by
  induction ps with
  | nil => simp at h
  | cons q ps ih =>
    cases ps with
    | nil => simp [List.mem_singleton.mp h]
    | cons r rs =>
      rw [List.intercalate_cons_cons]
      rcases List.mem_cons.mp h with rfl | hmem
      · exact ⟨[], sep ++ sep.intercalate (r :: rs), by simp⟩
      · exact List.infix_append_of_infix_right (ih hmem)

/-- Every piece of the reading is a stretch of the text. -/
theorem infix_of_mem_cutTopLevel {depth : Nat} {cs p : List Char}
    (h : p ∈ cutTopLevel depth cs) : p <:+: cs := by
  have hp := infix_intercalate_of_mem [','] p _ h
  rwa [intercalate_cutTopLevel] at hp

/-! ### Texts read in one go -/

/-- The depth after a whole text. -/
def depthAfter (depth : Nat) (cs : List Char) : Nat := cs.foldl stepDepth depth

@[simp] theorem depthAfter_nil (depth : Nat) : depthAfter depth [] = depth := rfl

@[simp] theorem depthAfter_cons (depth : Nat) (c : Char) (cs : List Char) :
    depthAfter depth (c :: cs) = depthAfter (stepDepth depth c) cs := rfl

theorem depthAfter_append (depth : Nat) (cs ds : List Char) :
    depthAfter depth (cs ++ ds) = depthAfter (depthAfter depth cs) ds := by
  simp [depthAfter, List.foldl_append]

theorem topLevelCommas_append (depth : Nat) (cs ds : List Char) :
    topLevelCommas depth (cs ++ ds) =
      topLevelCommas depth cs + topLevelCommas (depthAfter depth cs) ds := by
  induction cs generalizing depth with
  | nil => simp [topLevelCommas]
  | cons c cs ih =>
    by_cases hcut : c = ',' ∧ depth = 0
    · have hstep : stepDepth depth c = 0 := by simp [stepDepth, hcut.1, hcut.2]
      simp only [List.cons_append, topLevelCommas, if_pos hcut, ih, depthAfter_cons, hstep]
      omega
    · simp only [List.cons_append, topLevelCommas, if_neg hcut, ih, depthAfter_cons]

/-- A text with no comma at depth zero stays in the current piece: reading it and then the rest
puts it in front of the first piece of the rest, read from the depth it ends at. -/
theorem cutTopLevel_append {depth : Nat} {cs : List Char} (hcs : topLevelCommas depth cs = 0)
    (rest : List Char) :
    cutTopLevel depth (cs ++ rest) = extendFirst cs (cutTopLevel (depthAfter depth cs) rest) := by
  induction cs generalizing depth with
  | nil => exact (extendFirst_nil (cutTopLevel_ne_nil _ _)).symm
  | cons c cs ih =>
    by_cases hcut : c = ',' ∧ depth = 0
    · simp [topLevelCommas, hcut] at hcs
    · rw [topLevelCommas, if_neg hcut] at hcs
      rw [List.cons_append, cutTopLevel, if_neg hcut, ih hcs, extendFirst_extendFirst]
      rfl

/-- A text without parentheses and commas leaves the depth as it is and has no top-level comma. -/
theorem plain_scan {cs : List Char} (hcs : ∀ c ∈ cs, c ≠ '(' ∧ c ≠ ')' ∧ c ≠ ',')
    (depth : Nat) : depthAfter depth cs = depth ∧ topLevelCommas depth cs = 0 := by
  induction cs with
  | nil => exact ⟨rfl, rfl⟩
  | cons c cs ih =>
    obtain ⟨h₁, h₂, h₃⟩ := hcs c List.mem_cons_self
    have hstep : stepDepth depth c = depth := stepDepth_of_ne h₁ h₂
    obtain ⟨hdepth, hcommas⟩ := ih fun d hd => hcs d (List.mem_cons_of_mem c hd)
    simp [topLevelCommas, h₃, hstep, hdepth, hcommas]

/-! ### Lexers that find the punctuation -/

/-- The parentheses and commas of a text whose first character is at byte `offset`, each with
the one byte it occupies. -/
def punctuation (offset : Nat) : List Char → List (Token × Span)
  | [] => []
  | c :: cs =>
    if Token.ofChar c = .text then punctuation (offset + c.utf8Size) cs
    else (Token.ofChar c, ⟨offset, offset + 1⟩) :: punctuation (offset + c.utf8Size) cs

/-- The parenthesis and comma tokens among lexemes, with their spans. -/
def punctuationTokens : List Lexeme → List (Token × Span) :=
  List.filterMap fun
    | (some .text, _) => none
    | (some t, span) => some (t, span)
    | (none, _) => none

/-- What the splitter relies on of its lexer: the parenthesis and comma tokens it yields are the
parentheses and commas of the list, in order, each with the one byte it occupies. Text tokens
and unreadable input may come in any form. -/
def LexesPunctuation (body : String) (lexemes : List Lexeme) : Prop :=
  punctuationTokens lexemes = punctuation 0 body.toList

theorem punctuationTokens_lexFrom (offset : Nat) (cs : List Char) :
    punctuationTokens (lexFrom offset cs) = punctuation offset cs := by
  induction cs generalizing offset with
  | nil => rfl
  | cons c cs ih =>
    have hrest := ih (offset + c.utf8Size)
    simp only [lexFrom, punctuation]
    cases htoken : Token.ofChar c with
    | text =>
      simp only [if_true, ← hrest]
      split <;> simp_all [punctuationTokens]
    | lParen | rParen | comma =>
      simp only [punctuationTokens] at hrest ⊢
      simp [hrest]

/-- The lexer of the library finds the punctuation. -/
theorem lexesPunctuation_lex (body : String) : LexesPunctuation body (lex body) :=
  punctuationTokens_lexFrom 0 body.toList

/-! ### The splitter simulates the reading -/

/-- The splitter on a parenthesis or comma token. -/
def Scan.punctuate (body : List Char) (s : Scan) (e : Token × Span) : Scan :=
  s.step body (some e.1, e.2)

/-- A stray closing parenthesis leaves the depth at zero. -/
theorem Scan.step_rParen (body : List Char) (s : Scan) (span : Span) :
    s.step body (some .rParen, span) = { s with depth := s.depth - 1 } := by
  obtain ⟨depth, start, pieces⟩ := s
  cases depth <;> simp [Scan.step]

/-- Text tokens and unreadable input leave the splitter as it is: only the punctuation counts. -/
theorem foldl_step_eq_punctuate (body : List Char) (lexemes : List Lexeme) (s : Scan) :
    lexemes.foldl (Scan.step body) s =
      (punctuationTokens lexemes).foldl (Scan.punctuate body) s := by
  induction lexemes generalizing s with
  | nil => rfl
  | cons e lexemes ih =>
    obtain ⟨token, span⟩ := e
    rcases token with _ | ⟨_ | _ | _ | _⟩ <;>
      simp only [List.foldl_cons, punctuationTokens, List.filterMap_cons] at ih ⊢ <;>
      exact ih _

@[simp] theorem Token.ofChar_lParen : Token.ofChar '(' = .lParen := rfl

@[simp] theorem Token.ofChar_rParen : Token.ofChar ')' = .rParen := rfl

@[simp] theorem Token.ofChar_comma : Token.ofChar ',' = .comma := rfl

theorem Token.ofChar_eq_text {c : Char} (h₁ : c ≠ '(') (h₂ : c ≠ ')') (h₃ : c ≠ ',') :
    Token.ofChar c = .text := by
  simp [Token.ofChar, h₁, h₂, h₃]

section Simulation

variable (body : List Char)

/-- The simulation. The splitter has cut `pre` off the text and read `cur` of its current piece,
which starts at the byte length of `pre`; reading the punctuation of the rest and finishing gives
its pieces so far followed by the reading of the rest, with `cur` in front of its first piece. -/
theorem finish_foldl_punctuation (rest : List Char) :
    ∀ (pre cur : List Char) (s : Scan), body = pre ++ cur ++ rest →
      s.start = Text.byteLength pre →
      ((punctuation (Text.byteLength pre + Text.byteLength cur) rest).foldl
          (Scan.punctuate body) s).finish body =
        s.pieces ++ (extendFirst cur (cutTopLevel s.depth rest)).map
          fun p => String.ofList (Text.trim p) := by
  induction rest with
  | nil =>
    intro pre cur s hbody hstart
    have hlast : Text.dropBytes? s.start body = some cur := by
      rw [hstart, hbody, List.append_nil]
      exact Text.dropBytes?_append pre cur
    simp [punctuation, Scan.finish, hlast, cutTopLevel, extendFirst]
  | cons c rest ih =>
    intro pre cur s hbody hstart
    have hcont : ∀ s' : Scan, s'.start = s.start → s'.pieces = s.pieces →
        ((punctuation (Text.byteLength pre + Text.byteLength cur + c.utf8Size) rest).foldl
            (Scan.punctuate body) s').finish body =
          s.pieces ++ (extendFirst cur (extendFirst [c] (cutTopLevel s'.depth rest))).map
            fun p => String.ofList (Text.trim p) := by
      intro s' hs hp
      have hnext := ih pre (cur ++ [c]) s' (by simp [hbody]) (hs ▸ hstart)
      rw [extendFirst_extendFirst, ← hp, ← hnext, Text.byteLength_append, Text.byteLength_cons,
        Text.byteLength_nil, Nat.add_zero, Nat.add_assoc]
    by_cases hopen : c = '('
    · subst hopen
      exact hcont _ rfl rfl
    by_cases hclose : c = ')'
    · subst hclose
      have hcut : cutTopLevel s.depth (')' :: rest) =
          extendFirst [')'] (cutTopLevel (s.depth - 1) rest) := by
        simp [cutTopLevel, stepDepth]
      simp only [punctuation, Token.ofChar_rParen, reduceCtorEq, if_false, List.foldl_cons, hcut]
      simp only [Scan.punctuate, Scan.step_rParen]
      exact hcont _ rfl rfl
    by_cases hcomma : c = ','
    · subst hcomma
      have hsize : (',').utf8Size = 1 := rfl
      by_cases hdepth : s.depth = 0
      · have hslice : Text.sliceBytes? body s.start (Text.byteLength pre + Text.byteLength cur) =
            some cur := by
          rw [hstart, hbody]
          exact Text.sliceBytes?_append pre cur _
        have hnext := ih (pre ++ cur ++ [',']) []
          { s with pieces := s.pieces ++ [String.ofList (Text.trim cur)],
                   start := Text.byteLength pre + Text.byteLength cur + 1 }
          (by simp [hbody]) (by simp [hsize, Nat.add_assoc])
        simp only [Text.byteLength_append, Text.byteLength_cons, Text.byteLength_nil, hsize,
          Nat.add_zero, extendFirst_nil (cutTopLevel_ne_nil _ _), hdepth] at hnext
        simp only [punctuation, Token.ofChar_comma, reduceCtorEq, if_false, List.foldl_cons,
          Scan.punctuate, Scan.step, hdepth, if_true, hslice, Option.getD_some, cutTopLevel,
          and_self, hsize]
        simpa [extendFirst] using hnext
      · have hcut : cutTopLevel s.depth (',' :: rest) =
            extendFirst [','] (cutTopLevel s.depth rest) := by
          simp [cutTopLevel, stepDepth, hdepth]
        simp only [punctuation, Token.ofChar_comma, reduceCtorEq, if_false, List.foldl_cons, hcut]
        simp only [Scan.punctuate, Scan.step, hdepth, if_false]
        exact hcont _ rfl rfl
    · have hcut : cutTopLevel s.depth (c :: rest) = extendFirst [c] (cutTopLevel s.depth rest) := by
        simp [cutTopLevel, hcomma, stepDepth_of_ne hopen hclose]
      simp only [punctuation, Token.ofChar_eq_text hopen hclose hcomma, if_true, hcut]
      exact hcont s rfl rfl

end Simulation

/-- The splitter computes the character-level reading, for every lexer that finds the
punctuation. -/
theorem splitLexemes_eq_topLevelPieces (body : String) (lexemes : List Lexeme)
    (hlex : LexesPunctuation body lexemes) : splitLexemes body lexemes = topLevelPieces body := by
  unfold splitLexemes topLevelPieces
  split
  · rfl
  · rw [foldl_step_eq_punctuate, hlex]
    have hrun := finish_foldl_punctuation body.toList body.toList [] [] ⟨0, 0, []⟩ (by simp) rfl
    simp only [Text.byteLength_nil, Nat.add_zero, List.nil_append] at hrun
    rw [hrun, extendFirst_nil (cutTopLevel_ne_nil _ _)]

theorem splitTopLevel_eq_topLevelPieces (body : String) :
    splitTopLevel body = topLevelPieces body :=
  splitLexemes_eq_topLevelPieces body (lex body) (lexesPunctuation_lex body)

/-- Splitting a parameter list, for any lexer that finds its punctuation, is the
character-level reading: no pieces for a blank list, otherwise the pieces between the commas at
depth zero, trimmed. A list that is not blank has one piece more than top-level commas, every
piece is a stretch of the list, and the untrimmed pieces joined with commas give the list back. -/
theorem splitLexemes_spec (body : String) (lexemes : List Lexeme)
    (hlex : LexesPunctuation body lexemes) :
    splitLexemes body lexemes = topLevelPieces body ∧
      ((Text.trim body.toList).isEmpty = false →
        (splitLexemes body lexemes).length = topLevelCommas 0 body.toList + 1) ∧
      (∀ piece ∈ splitLexemes body lexemes, piece.toList <:+: body.toList) ∧
      [','].intercalate (cutTopLevel 0 body.toList) = body.toList := by
  have hread := splitLexemes_eq_topLevelPieces body lexemes hlex
  refine ⟨hread, ?_, ?_, intercalate_cutTopLevel 0 body.toList⟩
  · intro hblank
    rw [hread, topLevelPieces, if_neg (by simp [hblank]), List.length_map, length_cutTopLevel]
  · intro piece hpiece
    rw [hread, topLevelPieces] at hpiece
    split at hpiece
    · simp at hpiece
    · obtain ⟨p, hp, rfl⟩ := List.mem_map.mp hpiece
      rw [String.toList_ofList]
      exact (Text.trim_infix p).trans (infix_of_mem_cutTopLevel hp)

theorem splitLexemes_spec_nested :
    LexesPunctuation "A(1,2), B" (lex "A(1,2), B") ∧
      splitLexemes "A(1,2), B" (lex "A(1,2), B") = topLevelPieces "A(1,2), B" := by
  have hlex : LexesPunctuation "A(1,2), B" (lex "A(1,2), B") := by
    unfold LexesPunctuation
    decide
  exact ⟨hlex, (splitLexemes_spec _ _ hlex).1⟩

example : splitTopLevel "A), (B, C" = ["A)", "(B, C"] := by decide

end Introspect.Signature
