import Introspect.Signature.Basic
import Introspect.Proofs.Split
import Introspect.Proofs.Text
import Introspect.Proofs.Parameter

/-!
# Reading back a written signature

A routine signature is written from a name, its parameters and a return text as
`NAME(P1, P2, ...) RETURN T` (`writeSignature`), each parameter from its parts: an optional
`DEFAULT ` marker, a type name, and an optional qualifier in parentheses
(`ParameterParts.render`). Reading the signature back gives the parameters it was written from
(`declaredParameters_writeSignature`), provided the parts can be told apart in the text
(`ParameterParts.Readable`): a type name that is not empty, has no parentheses or commas and no
blank at either end, and does not itself start with the marker unless the parameter has one; a
qualifier whose parentheses balance and that does not hold the return marker; and a name without
`(` or the return marker.

The proof follows the reading. The first `(` is the one after the name, and the first return
marker the one after the list, since a marker can overlap neither itself nor a `(`, and a comma
or an opening parenthesis keeps it within one part (`not_infix_render`). A qualifier's commas
are at depth one or more and its parentheses leave the depth as they found it
(`balanced_scan`), so the top-level pieces of the list are the written parameters, each after a
blank (`cutTopLevel_intercalate`). Trimming gives each parameter back, and splitting it gives its
parts back (`ofSegment_render`).
-/

set_option autoImplicit false
set_option relaxedAutoImplicit false

namespace Introspect.Signature

/-! ### Writing signatures -/

/-- The parts a parameter is written from: whether it has a default value, its type name, and
the text between the parentheses of its qualifier, if it has one. -/
structure ParameterParts where
  hasDefault : Bool
  typeName : String
  qualifier : Option String
deriving DecidableEq, Repr

namespace ParameterParts

/-- The qualifier with its parentheses. -/
def wrappedQualifier (p : ParameterParts) : Option String :=
  p.qualifier.map fun q => "(" ++ q ++ ")"

/-- The written parameter. -/
def render (p : ParameterParts) : String :=
  Parameter.render p.hasDefault p.typeName p.wrappedQualifier

/-- The declared parameter that reading the written parameter should give. -/
def declared (p : ParameterParts) : Parameter :=
  ⟨p.render, p.hasDefault, p.typeName, p.wrappedQualifier⟩

end ParameterParts

/-- The signature of a routine with these parameters. -/
def writeSignature (name : String) (ps : List ParameterParts) (returns : String) : String :=
  name ++ "(" ++ ", ".intercalate (ps.map ParameterParts.render) ++ ") RETURN " ++ returns

/-- Balanced parentheses: no prefix closes more than it has opened, and the whole text closes all
it opens. -/
def Balanced (q : List Char) : Prop :=
  (∀ k ≤ q.length, (q.take k).count ')' ≤ (q.take k).count '(') ∧ q.count ')' = q.count '('

instance (q : List Char) : Decidable (Balanced q) := inferInstanceAs (Decidable (_ ∧ _))

/-- Parts that can be told apart once written. -/
structure ParameterParts.Readable (p : ParameterParts) : Prop where
  typeName_ne_nil : p.typeName.toList ≠ []
  typeName_plain : ∀ c ∈ p.typeName.toList, c ≠ '(' ∧ c ≠ ')' ∧ c ≠ ','
  typeName_head : ∀ c ∈ p.typeName.toList.head?, Text.isBlank c = false
  typeName_last : ∀ c ∈ p.typeName.toList.getLast?, Text.isBlank c = false
  no_stray_default : p.hasDefault = false → ¬ Parameter.defaultMarker <+: p.typeName.toList
  qualifier_balanced : ∀ q ∈ p.qualifier, Balanced q.toList
  qualifier_unmarked : ∀ q ∈ p.qualifier, ¬ returnMarker <:+: q.toList

/-! ### Parentheses that balance -/

/-- A text in which no prefix closes more than `slack` parentheses beyond those it opened, read
from a depth of at least `slack`, never needs the floor at zero: its depth moves by what it opens
minus what it closes, and it stays above zero when it starts above `slack`, so none of its commas
is at the top level. -/
theorem balanced_scan (q : List Char) :
    ∀ (depth slack : Nat), slack ≤ depth →
      (∀ k, (q.take k).count ')' ≤ (q.take k).count '(' + slack) →
      depthAfter depth q + q.count ')' = depth + q.count '(' ∧
        (slack < depth → topLevelCommas depth q = 0) := by
  induction q with
  | nil => intro depth slack _ _; exact ⟨rfl, fun _ => rfl⟩
  | cons c q ih =>
    intro depth slack hslack hprefix
    have hnext : ∀ k, (q.take k).count ')' + (if c = ')' then 1 else 0) ≤
        (q.take k).count '(' + (if c = '(' then 1 else 0) + slack := by
      intro k
      simpa only [List.take_succ_cons, List.count_cons, beq_iff_eq] using hprefix (k + 1)
    by_cases hopen : c = '('
    · subst hopen
      obtain ⟨hd, hc⟩ := ih (depth + 1) (slack + 1) (by omega) fun k => by
        have := hnext k
        simp at this
        omega
      have hstep : stepDepth depth '(' = depth + 1 := by simp [stepDepth]
      have hcount :
          ('(' :: q).count ')' = q.count ')' ∧ ('(' :: q).count '(' = q.count '(' + 1 := by
        simp
      refine ⟨by rw [depthAfter_cons, hstep, hcount.1, hcount.2]; omega, fun _ => ?_⟩
      rw [topLevelCommas, if_neg (by simp), hstep]
      exact hc (by omega)
    by_cases hclose : c = ')'
    · subst hclose
      have hone : 1 ≤ slack := by simpa using hprefix 1
      obtain ⟨hd, hc⟩ := ih (depth - 1) (slack - 1) (by omega) fun k => by
        have := hnext k
        simp at this
        omega
      have hstep : stepDepth depth ')' = depth - 1 := by simp [stepDepth]
      have hcount :
          (')' :: q).count ')' = q.count ')' + 1 ∧ (')' :: q).count '(' = q.count '(' := by
        simp
      refine ⟨by rw [depthAfter_cons, hstep, hcount.1, hcount.2]; omega, fun _ => ?_⟩
      rw [topLevelCommas, if_neg (by simp), hstep]
      exact hc (by omega)
    · obtain ⟨hd, hc⟩ := ih depth slack hslack fun k => by
        have := hnext k
        simp [hopen, hclose] at this
        omega
      have hstep : stepDepth depth c = depth := stepDepth_of_ne hopen hclose
      have hcount : (c :: q).count ')' = q.count ')' ∧ (c :: q).count '(' = q.count '(' := by
        simp [hopen, hclose]
      refine ⟨by rw [depthAfter_cons, hstep, hcount.1, hcount.2, hd], fun hlt => ?_⟩
      have htop : ¬ (c = ',' ∧ depth = 0) := fun h => by omega
      rw [topLevelCommas, if_neg htop, hstep]
      exact hc hlt

/-- A balanced text in parentheses returns to the depth it started at, and none of its commas is
at that depth. -/
theorem balanced_wrapped_scan {q : List Char} (hq : Balanced q) (depth : Nat) :
    depthAfter depth ('(' :: q ++ [')']) = depth ∧
      topLevelCommas depth ('(' :: q ++ [')']) = 0 := by
  have hprefix : ∀ k, (q.take k).count ')' ≤ (q.take k).count '(' + 0 := by
    intro k
    by_cases hk : k ≤ q.length
    · exact hq.1 k hk
    · rw [List.take_of_length_le (by omega)]
      exact Nat.le_of_eq hq.2
  obtain ⟨hd, hc⟩ := balanced_scan q (depth + 1) 0 (Nat.zero_le _) hprefix
  have hinner : depthAfter (depth + 1) q = depth + 1 := by
    have htotal := hq.2
    omega
  have hstep : stepDepth depth '(' = depth + 1 := by simp [stepDepth]
  constructor
  · rw [List.cons_append, depthAfter_cons, hstep, depthAfter_append, hinner]
    simp [stepDepth]
  · rw [List.cons_append, topLevelCommas, if_neg (by simp), hstep, topLevelCommas_append, hinner,
      hc (by omega)]
    simp [topLevelCommas]

/-! ### One written parameter -/

namespace ParameterParts

variable {p : ParameterParts}

/-- The characters of a written qualifier. -/
def wrappedChars : Option String → List Char
  | none => []
  | some q => '(' :: q.toList ++ [')']

theorem render_toList (p : ParameterParts) :
    p.render.toList = ((if p.hasDefault then Parameter.defaultMarker else []) ++
      p.typeName.toList) ++ wrappedChars p.qualifier := by
  obtain ⟨d, n, q⟩ := p
  cases d <;> cases q <;> simp [render, Parameter.render, wrappedQualifier, wrappedChars] <;> rfl

theorem defaultMarker_eq : Parameter.defaultMarker = ['D', 'E', 'F', 'A', 'U', 'L', 'T', ' '] := rfl

theorem plain_defaultMarker : ∀ c ∈ Parameter.defaultMarker, c ≠ '(' ∧ c ≠ ')' ∧ c ≠ ',' := by
  rw [defaultMarker_eq]
  simp

/-- What comes before the qualifier has no parentheses and no commas. -/
theorem plain_head (hp : p.Readable) :
    ∀ c ∈ (if p.hasDefault then Parameter.defaultMarker else []) ++ p.typeName.toList,
      c ≠ '(' ∧ c ≠ ')' ∧ c ≠ ',' := by
  intro c hc
  rcases List.mem_append.mp hc with hm | hn
  · split at hm
    · exact plain_defaultMarker c hm
    · simp at hm
  · exact hp.typeName_plain c hn

/-- A written parameter leaves the depth at zero and has no comma at the top level. -/
theorem render_scan (hp : p.Readable) :
    depthAfter 0 p.render.toList = 0 ∧ topLevelCommas 0 p.render.toList = 0 := by
  obtain ⟨hd, hc⟩ := plain_scan (plain_head hp) 0
  rw [render_toList, depthAfter_append, topLevelCommas_append, hd, hc]
  cases hq : p.qualifier with
  | none => exact ⟨rfl, rfl⟩
  | some q =>
    obtain ⟨hd', hc'⟩ := balanced_wrapped_scan (hp.qualifier_balanced q hq) 0
    exact ⟨hd', by simpa [wrappedChars] using hc'⟩

theorem render_head (hp : p.Readable) : ∀ c ∈ p.render.toList.head?, Text.isBlank c = false := by
  obtain ⟨n, rest, hn⟩ := List.exists_cons_of_ne_nil hp.typeName_ne_nil
  rw [render_toList]
  cases p.hasDefault
  · intro c hc
    apply hp.typeName_head c
    simpa [hn] using hc
  · intro c hc
    rw [defaultMarker_eq] at hc
    cases hc
    decide

theorem render_last (hp : p.Readable) : ∀ c ∈ p.render.toList.getLast?, Text.isBlank c = false := by
  rw [render_toList]
  cases hq : p.qualifier with
  | none =>
    obtain ⟨n, x, hn⟩ := (List.eq_nil_or_concat p.typeName.toList).resolve_left hp.typeName_ne_nil
    have hx : p.typeName.toList.getLast? = some x := by
      rw [hn, List.concat_eq_append]
      exact List.getLast?_concat
    intro c hc
    rw [wrappedChars, List.append_nil, List.getLast?_append, hx] at hc
    cases hc
    exact hp.typeName_last x hx
  | some q =>
    have hwrapped : (wrappedChars (some q)).getLast? = some ')' := by
      rw [wrappedChars]
      exact List.getLast?_concat
    intro c hc
    rw [List.getLast?_append, hwrapped] at hc
    cases hc
    decide

theorem render_ne_nil (hp : p.Readable) : p.render.toList ≠ [] := by
  rw [render_toList]
  intro h
  exact hp.typeName_ne_nil (List.append_eq_nil_iff.mp (List.append_eq_nil_iff.mp h).1).2

/-- The return marker never occurs in a written parameter: not before the qualifier, which has no
closing parenthesis, and not across its `(`, which the marker lacks. -/
theorem not_infix_render (hp : p.Readable) : ¬ returnMarker <:+: p.render.toList := by
  have hhead : ¬ returnMarker <:+:
      (if p.hasDefault then Parameter.defaultMarker else []) ++ p.typeName.toList :=
    Text.not_infix_of_mem (c := ')') (by decide) fun hc => (plain_head hp ')' hc).2.1 rfl
  rw [render_toList]
  cases hq : p.qualifier with
  | none => simpa [wrappedChars] using hhead
  | some q =>
    rw [wrappedChars]
    exact Text.not_infix_append_cons (by decide) hhead
      (Text.not_infix_append_singleton (by decide) (hp.qualifier_unmarked q hq))

/-- The marker is taken off exactly when the parameter was written with it. -/
theorem stripDefault_render (hp : p.Readable) :
    Parameter.stripDefault p.render.toList =
      (p.hasDefault, p.typeName.toList ++ wrappedChars p.qualifier) := by
  rw [render_toList]
  cases hd : p.hasDefault
  · have hno : ¬ Parameter.defaultMarker <+: p.typeName.toList ++ wrappedChars p.qualifier := by
      intro hpre
      apply hp.no_stray_default hd
      cases hq : p.qualifier with
      | none => simpa [hq, wrappedChars] using hpre
      | some q =>
        rw [hq, wrappedChars, List.cons_append] at hpre
        exact Text.prefix_of_prefix_append_cons hpre (by rw [defaultMarker_eq]; decide)
    simp only [Parameter.stripDefault, Bool.false_eq_true, ↓reduceIte, List.nil_append]
    rw [if_neg (by rwa [List.isPrefixOf_iff_prefix])]
  · simp only [Parameter.stripDefault, ↓reduceIte, List.append_assoc]
    rw [if_pos (List.isPrefixOf_iff_prefix.mpr (List.prefix_append _ _)), List.drop_left]

/-- The type name is everything before the qualifier's `(`, and the qualifier the rest. -/
theorem splitQualifier_render (hp : p.Readable) :
    Parameter.splitQualifier (p.typeName.toList ++ wrappedChars p.qualifier) =
      (p.typeName.toList, p.qualifier.map fun q => '(' :: (q.toList ++ [')'])) := by
  have hopen : '(' ∉ p.typeName.toList := fun h => (hp.typeName_plain '(' h).1 rfl
  cases p.qualifier with
  | none =>
    rw [wrappedChars, List.append_nil, Parameter.splitQualifier_of_not_mem hopen]
    rfl
  | some q =>
    rw [wrappedChars, List.cons_append, Parameter.splitQualifier_append hopen,
      Text.trimEnd_eq_self hp.typeName_last]
    rfl

/-- Reading a written parameter gives back the parts it was written from. -/
theorem ofSegment_render (hp : p.Readable) : Parameter.ofSegment p.render = p.declared := by
  have hqualifier : (p.qualifier.map fun q => '(' :: (q.toList ++ [')'])).map String.ofList =
      p.wrappedQualifier := by
    cases hq : p.qualifier with
    | none => simp [wrappedQualifier, hq]
    | some q =>
      simp only [Option.map_some, wrappedQualifier, hq, Option.some.injEq]
      rw [← String.toList_inj, String.toList_ofList, String.toList_append, String.toList_append]
      rfl
  simp only [Parameter.ofSegment, stripDefault_render hp, splitQualifier_render hp,
    String.ofList_toList, hqualifier]
  rfl

end ParameterParts

/-! ### The parameter list -/

theorem returnMarker_eq : returnMarker = [')', ' ', 'R', 'E', 'T', 'U', 'R', 'N', ' '] := rfl

/-- Pieces that each leave the depth at zero and have no top-level comma, written with `, `
between them, are cut back apart, each after the first with its blank in front. -/
theorem cutTopLevel_intercalate (r : List Char) (rs : List (List Char))
    (hclosed : ∀ x ∈ r :: rs, depthAfter 0 x = 0 ∧ topLevelCommas 0 x = 0) :
    cutTopLevel 0 ([',', ' '].intercalate (r :: rs)) = r :: rs.map (' ' :: ·) := by
  induction rs generalizing r with
  | nil =>
    obtain ⟨hd, hc⟩ := hclosed r List.mem_cons_self
    have hcut := cutTopLevel_append hc []
    rw [List.append_nil, hd] at hcut
    rw [List.intercalate_singleton, hcut]
    simp [cutTopLevel, extendFirst]
  | cons r' rs ih =>
    obtain ⟨hd, hc⟩ := hclosed r List.mem_cons_self
    have hrest := ih r' fun x hx => hclosed x (List.mem_cons_of_mem r hx)
    rw [List.intercalate_cons_cons, List.append_assoc, cutTopLevel_append hc, hd]
    simp [cutTopLevel, stepDepth, hrest, extendFirst]

theorem not_infix_intercalate (rs : List (List Char))
    (hrs : ∀ r ∈ rs, ¬ returnMarker <:+: r) : ¬ returnMarker <:+: [',', ' '].intercalate rs := by
  induction rs with
  | nil => exact fun h => by simpa [returnMarker_eq] using List.eq_nil_of_infix_nil h
  | cons r rs ih =>
    have hrest := ih fun x hx => hrs x (List.mem_cons_of_mem r hx)
    cases rs with
    | nil => simpa using hrs r List.mem_cons_self
    | cons r' rs =>
      rw [List.intercalate_cons_cons, List.append_assoc]
      exact Text.not_infix_append_cons (by decide) (hrs r List.mem_cons_self)
        (Text.not_infix_cons (by decide) hrest)

theorem writtenList_toList (ps : List ParameterParts) :
    (", ".intercalate (ps.map ParameterParts.render)).toList =
      [',', ' '].intercalate (ps.map fun p => p.render.toList) := by
  rw [String.toList_intercalate, List.map_map]
  rfl

/-- The top-level pieces of a written list are the written parameters. -/
theorem topLevelPieces_writtenList (ps : List ParameterParts) (hps : ∀ p ∈ ps, p.Readable) :
    topLevelPieces (", ".intercalate (ps.map ParameterParts.render)) =
      ps.map ParameterParts.render := by
  cases ps with
  | nil => rfl
  | cons p ps =>
    have hp := hps p List.mem_cons_self
    obtain ⟨c, rest, hc⟩ := List.exists_cons_of_ne_nil (ParameterParts.render_ne_nil hp)
    have hcb : Text.isBlank c = false := ParameterParts.render_head hp c (by simp [hc])
    have hcut := cutTopLevel_intercalate p.render.toList (ps.map fun p => p.render.toList)
      fun x hx => by
        rcases List.mem_cons.mp hx with rfl | hx
        · exact ParameterParts.render_scan hp
        · obtain ⟨q, hq, rfl⟩ := List.mem_map.mp hx
          exact ParameterParts.render_scan (hps q (List.mem_cons_of_mem p hq))
    have hblank :
        (Text.trim (", ".intercalate ((p :: ps).map ParameterParts.render)).toList).isEmpty =
          false := by
      rw [writtenList_toList, List.isEmpty_eq_false_iff]
      refine Text.trim_ne_nil (c := c) ?_ hcb
      cases ps <;> simp [hc]
    have htrim : ∀ q ∈ p :: ps, Text.trim q.render.toList = q.render.toList := fun q hq =>
      Text.trim_eq_self (ParameterParts.render_head (hps q hq))
        (ParameterParts.render_last (hps q hq))
    rw [topLevelPieces, if_neg (by rw [hblank]; decide), writtenList_toList, List.map_cons, hcut]
    simp only [List.map_cons, List.map_map, List.cons.injEq]
    refine ⟨by rw [htrim p List.mem_cons_self, String.ofList_toList], ?_⟩
    apply List.map_congr_left
    intro q hq
    simp [Function.comp, Text.trim_cons_blank _ (by decide : Text.isBlank ' ' = true),
      htrim q (List.mem_cons_of_mem p hq)]

/-- The parameter list of a signature is what stands between the `(` after its name and the
return marker, as long as the name has no `(` and no marker comes earlier. -/
theorem parameterList_append (name body returns : List Char) (hopen : '(' ∉ name)
    (hmarker : ¬ returnMarker <:+: name ++ '(' :: body) :
    parameterList (String.ofList (name ++ '(' :: body ++ returnMarker ++ returns)) =
      .ok (String.ofList body) := by
  have hfirst : Text.firstIndex? ['('] (name ++ '(' :: body ++ returnMarker ++ returns) =
      some name.length := by
    have h := Text.firstIndex?_append_of_not_infix (c := '(') (t := []) name
      (body ++ returnMarker ++ returns) (List.not_mem_nil) (Text.not_infix_of_mem
        List.mem_cons_self hopen)
    simpa using h
  have hclose : Text.firstIndex? returnMarker (name ++ '(' :: body ++ returnMarker ++ returns) =
      some (name.length + 1 + body.length) := by
    have h := Text.firstIndex?_append_of_not_infix (c := ')')
      (t := [' ', 'R', 'E', 'T', 'U', 'R', 'N', ' ']) (name ++ '(' :: body) returns
      (by decide) (by rwa [← returnMarker_eq])
    rw [← returnMarker_eq] at h
    simpa [Nat.add_assoc, Nat.add_comm 1] using h
  rw [parameterList, String.toList_ofList, hfirst, hclose]
  dsimp only
  rw [if_neg (by omega), if_pos (by omega)]
  have hbody : (List.take (name.length + 1 + body.length)
      (name ++ '(' :: body ++ returnMarker ++ returns)).drop (name.length + 1) = body := by
    have hsplit : name ++ '(' :: body ++ returnMarker ++ returns =
        (name ++ ['(']) ++ body ++ (returnMarker ++ returns) := by
      simp
    rw [hsplit, List.take_left' (by simp; omega), List.drop_left' (by simp)]
  rw [hbody]

/-- Once the parameter list is found and none of its pieces is empty, the declared parameters are
its pieces, read one by one. -/
theorem declaredParameters_eq_ok {signature body : String}
    (hlist : parameterList signature = .ok body)
    (hne : ∀ piece ∈ splitTopLevel body, piece.isEmpty = false) :
    declaredParameters signature = .ok ((splitTopLevel body).map Parameter.ofSegment) := by
  have hnone : (splitTopLevel body).findIdx? (·.isEmpty) = none := by
    rw [List.findIdx?_eq_none_iff]
    exact hne
  rw [declaredParameters, hlist]
  simp only [bind, Except.bind, hnone]
  rfl

/-! ### Reading back -/

/-- Reading a written signature gives back the parameters it was written from: the declared
parameters are the written ones, in order, each with its segment, its default marker, its type
name and its qualifier, and so the type names are those it was written with. -/
theorem declaredParameters_writeSignature (name returns : String) (ps : List ParameterParts)
    (hopen : '(' ∉ name.toList) (hmarker : ¬ returnMarker <:+: name.toList)
    (hps : ∀ p ∈ ps, p.Readable) :
    declaredParameters (writeSignature name ps returns) = .ok (ps.map ParameterParts.declared) ∧
      parameterTypeNames (writeSignature name ps returns) = .ok (ps.map (·.typeName)) := by
  have hsig : writeSignature name ps returns =
      String.ofList (name.toList ++ '(' :: (", ".intercalate (ps.map ParameterParts.render)).toList
        ++ returnMarker ++ returns.toList) := by
    have hopenChars : "(".toList = ['('] := rfl
    have hmarkerChars : ") RETURN ".toList = returnMarker := rfl
    rw [← String.toList_inj, String.toList_ofList, writeSignature]
    simp [String.toList_append, hopenChars, hmarkerChars]
  have hbodyMarker :
      ¬ returnMarker <:+: (", ".intercalate (ps.map ParameterParts.render)).toList := by
    rw [writtenList_toList]
    refine not_infix_intercalate _ fun r hr => ?_
    obtain ⟨p, hp, rfl⟩ := List.mem_map.mp hr
    exact ParameterParts.not_infix_render (hps p hp)
  have hlist : parameterList (writeSignature name ps returns) =
      .ok (", ".intercalate (ps.map ParameterParts.render)) := by
    rw [hsig, parameterList_append _ _ _ hopen
      (Text.not_infix_append_cons (by decide) hmarker hbodyMarker), String.ofList_toList]
  have hpieces : splitTopLevel (", ".intercalate (ps.map ParameterParts.render)) =
      ps.map ParameterParts.render := by
    rw [splitTopLevel_eq_topLevelPieces, topLevelPieces_writtenList ps hps]
  have hnonempty : ∀ piece ∈ ps.map ParameterParts.render, piece.isEmpty = false := by
    intro piece hpiece
    obtain ⟨p, hp, rfl⟩ := List.mem_map.mp hpiece
    have hne := ParameterParts.render_ne_nil (hps p hp)
    rw [Bool.eq_false_iff]
    intro hempty
    apply hne
    rw [String.isEmpty_iff.mp hempty]
    rfl
  have hread : ps.map (Parameter.ofSegment ∘ ParameterParts.render) =
      ps.map ParameterParts.declared :=
    List.map_congr_left fun p hp => ParameterParts.ofSegment_render (hps p hp)
  have hdecl : declaredParameters (writeSignature name ps returns) =
      .ok (ps.map ParameterParts.declared) := by
    rw [declaredParameters_eq_ok hlist (by rw [hpieces]; exact hnonempty), hpieces, List.map_map,
      hread]
  refine ⟨hdecl, ?_⟩
  simp only [parameterTypeNames, hdecl, Except.map, List.map_map]
  rfl

theorem parameterTypeNames_foo :
    parameterTypeNames "FOO(NUMBER(38,0), VARCHAR, DEFAULT BOOLEAN) RETURN NUMBER" =
      .ok ["NUMBER", "VARCHAR", "BOOLEAN"] := by
  have hsig : writeSignature "FOO"
      [⟨false, "NUMBER", some "38,0"⟩, ⟨false, "VARCHAR", none⟩, ⟨true, "BOOLEAN", none⟩]
      "NUMBER" = "FOO(NUMBER(38,0), VARCHAR, DEFAULT BOOLEAN) RETURN NUMBER" := by
    decide
  rw [← hsig]
  refine (declaredParameters_writeSignature "FOO" "NUMBER" _ (by decide) (by decide) ?_).2
  intro p hp
  simp only [List.mem_cons, List.mem_nil_iff, or_false] at hp
  rcases hp with rfl | rfl | rfl <;> constructor <;> simp <;> decide

end Introspect.Signature
