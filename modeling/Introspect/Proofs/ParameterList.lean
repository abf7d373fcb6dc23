import Introspect.Proofs.Signature
import Mathlib.Data.List.Infix

/-!
# Finding the parameter list

The parameter list of a signature is cut out by two searches, for the first `(` and for the
first `) RETURN ` marker. Each search is read as a decomposition of the signature: the first `(`
is the one after a text without `(` (`firstOpen_eq_some_iff`), the first marker the one after a
text without the marker (`firstMarker_eq_some_iff`).

Every signature falls under one of four shapes (`shapes`): no `(`; a `(` but no marker; a marker
before every `(`; or a `(` with no `(` before it, then a text, then a marker with no marker before
it. Each shape has its outcome, and so each outcome is exactly its shape (`parameterList_spec`):
the three errors are tried in the order no `(`, no marker, marker first, and otherwise the list is
the text between the two. Since a `(` never starts the marker, the two positions always differ,
and the cut between them never fails: the fallback error for a failed cut is not reached. The
list found never contains the marker.

Searched and cut by bytes, the list is the same (`parameterList_eq_bytes`). A search among the
UTF-8 bytes finds each pattern at the byte length of the text before it, so the offsets compare as
the positions do, and both ends of the cut fall between characters.
-/

set_option autoImplicit false
set_option relaxedAutoImplicit false

namespace Introspect.Signature

open Text

variable {cs : List Char}

theorem not_mem_returnMarker : '(' ∉ returnMarker := by
  decide

/-- The first marker stands after a text without the marker. -/
theorem firstMarker_eq_some_iff {c : Nat} :
    firstIndex? returnMarker cs = some c ↔
      ∃ pre post, cs = pre ++ returnMarker ++ post ∧ ¬ returnMarker <:+: pre ∧ pre.length = c :=
  firstIndex?_eq_some_iff_append (c := ')') (by decide)

/-- The four shapes of a signature that decide how its parameter list is found. When the marker
comes first it stands in the text before the first `(`; the two cannot start at one position, since
a `(` does not start the marker; when the `(` comes first, the marker closes a text that starts with
it. -/
theorem shapes (cs : List Char) :
    '(' ∉ cs ∨ ('(' ∈ cs ∧ ¬ returnMarker <:+: cs) ∨
      (∃ pre post, cs = pre ++ returnMarker ++ post ∧ '(' ∉ pre ∧ '(' ∈ post) ∨
      ∃ pre body post, cs = pre ++ '(' :: body ++ returnMarker ++ post ∧ '(' ∉ pre ∧
        ¬ returnMarker <:+: pre ++ '(' :: body := by
  cases hO : firstIndex? ['('] cs with
  | none => exact .inl (firstOpen_eq_none_iff.mp hO)
  | some o =>
    obtain ⟨P, Q, hPQ, hP, rfl⟩ := firstOpen_eq_some_iff.mp hO
    have hmem : '(' ∈ cs := by simp [hPQ]
    cases hC : firstIndex? returnMarker cs with
    | none => exact .inr (.inl ⟨hmem, firstIndex?_eq_none_iff.mp hC⟩)
    | some c =>
      obtain ⟨R, T, hRT, hR, rfl⟩ := firstMarker_eq_some_iff.mp hC
      have hPcs : P <+: cs := hPQ ▸ List.prefix_append _ _
      have hRcs : R <+: cs := hRT ▸ List.append_assoc R _ _ ▸ List.prefix_append _ _
      rcases Nat.lt_trichotomy R.length P.length with hlt | heq | hgt
      · have hRP : R <+: P := List.prefix_of_prefix_length_le hRcs hPcs hlt.le
        refine .inr (.inr (.inl ⟨R, T, hRT, fun h => hP (hRP.subset h), ?_⟩))
        have hin : '(' ∈ R ++ returnMarker ++ T := hRT ▸ hmem
        simp only [List.mem_append] at hin
        rcases hin with (hin | hin) | hin
        · exact absurd (hRP.subset hin) hP
        · exact absurd hin not_mem_returnMarker
        · exact hin
      · have hRP : R = P := (List.prefix_of_prefix_length_le hRcs hPcs heq.le).eq_of_length heq
        subst hRP
        rw [hRT, List.append_assoc, List.append_cancel_left_eq] at hPQ
        exact absurd (List.cons.inj hPQ).1 (by decide)
      · have hcs' : P ++ ['('] <+: cs := ⟨Q, by rw [List.append_assoc]; exact hPQ.symm⟩
        obtain ⟨body, hbody⟩ : P ++ ['('] <+: R :=
          List.prefix_of_prefix_length_le hcs' hRcs (by simp; omega)
        rw [← hbody] at hRT hR
        refine .inr (.inr (.inr ⟨P, body, T, by simpa using hRT, hP, by simpa using hR⟩))

theorem parameterList_of_not_mem_open {s : String} (h : '(' ∉ s.toList) :
    parameterList s = .error (.malformed s .missingOpen) := by
  rw [parameterList, firstOpen_eq_none_iff.mpr h]

theorem parameterList_of_not_infix_marker {s : String} (h : '(' ∈ s.toList)
    (hmarker : ¬ returnMarker <:+: s.toList) :
    parameterList s = .error (.malformed s .missingReturn) := by
  obtain ⟨o, ho⟩ := Option.ne_none_iff_exists'.mp (mt firstOpen_eq_none_iff.mp (not_not.mpr h))
  rw [parameterList, ho, firstIndex?_eq_none_iff.mpr hmarker]

/-- A marker before every `(` is an error: the first marker is no later than this one, and the first
`(` comes after it. -/
theorem parameterList_of_marker_first {s : String} {pre post : List Char}
    (hs : s.toList = pre ++ returnMarker ++ post) (hpre : '(' ∉ pre) (hpost : '(' ∈ post) :
    parameterList s = .error (.malformed s .returnBeforeOpen) := by
  obtain ⟨o, ho⟩ : ∃ o, firstIndex? ['('] s.toList = some o :=
    Option.ne_none_iff_exists'.mp (mt firstOpen_eq_none_iff.mp (by simp [hs, hpost]))
  obtain ⟨c, hc⟩ : ∃ c, firstIndex? returnMarker s.toList = some c :=
    Option.ne_none_iff_exists'.mp (mt firstIndex?_eq_none_iff.mp
      (not_not.mpr ⟨pre, post, hs.symm⟩))
  have hc_le : c ≤ pre.length := by
    refine Nat.le_of_not_lt fun hlt => (firstIndex?_eq_some_iff.mp hc).2 _ hlt ⟨post, ?_⟩
    rw [hs, List.append_assoc, List.drop_left]
  have ho_gt : pre.length < o := by
    obtain ⟨P, Q, hPQ, hP, rfl⟩ := firstOpen_eq_some_iff.mp ho
    refine Nat.lt_of_not_le fun hle => ?_
    have hprefix : P ++ ['('] <+: pre ++ returnMarker :=
      List.prefix_of_prefix_length_le ⟨Q, by rw [List.append_assoc]; exact hPQ.symm⟩
        ⟨post, hs.symm⟩ (by simp [returnMarker_eq]; omega)
    have hin := hprefix.subset (List.mem_append_right P (List.mem_singleton_self '('))
    rcases List.mem_append.mp hin with hin | hin
    · exact hpre hin
    · exact not_mem_returnMarker hin
  rw [parameterList, ho, hc]
  dsimp only
  rw [if_pos (by omega)]

theorem parameterList_of_open_first {s : String} {pre body post : List Char}
    (hs : s.toList = pre ++ '(' :: body ++ returnMarker ++ post) (hpre : '(' ∉ pre)
    (hmarker : ¬ returnMarker <:+: pre ++ '(' :: body) :
    parameterList s = .ok (String.ofList body) := by
  rw [← String.ofList_toList (s := s), hs, parameterList_append pre body post hpre hmarker]

/-- The parameter list as a search and a cut by byte offsets find it. The searches report the byte
lengths of the texts before the first `(` and before the first marker, so the marker comes first by
bytes exactly when it does by characters. The cut runs from past the one byte of the `(` to the
marker; both ends fall between characters, so it never fails once the `(` comes first, and it
reads the list. -/
theorem parameterList_eq_bytes (s : String) :
    parameterList s =
      (firstByteIndex? ['('] s.toList).elim (.error (.malformed s .missingOpen)) fun opening =>
        (firstByteIndex? returnMarker s.toList).elim (.error (.malformed s .missingReturn))
          fun closing =>
            if closing < opening then .error (.malformed s .returnBeforeOpen)
            else ((sliceBytes? s.toList (opening + 1) closing).map String.ofList).elim
              (.error (.malformed s .missingOpen)) .ok := by
  rw [parameterList, firstByteIndex?_eq, firstByteIndex?_eq]
  cases ho : firstIndex? ['('] s.toList with
  | none => rfl
  | some o =>
    cases firstIndex? returnMarker s.toList with
    | none => rfl
    | some c =>
      obtain ⟨pre, post, hs, -, rfl⟩ := firstOpen_eq_some_iff.mp ho
      have hlen : pre.length < s.toList.length := by simp [hs]
      have hopen : byteLength (s.toList.take (pre.length + 1)) =
          byteLength (s.toList.take pre.length) + 1 :=
        byteLength_take_succ (show s.toList[pre.length]? = some '(' by simp [hs])
      simp only [Option.map_some, Option.elim_some]
      by_cases hco : c < pre.length
      · rw [if_pos hco, if_pos (byteLength_take_lt _ hco hlen.le)]
      · rw [if_neg hco, if_neg (Nat.not_lt.mpr (byteLength_take_mono _ (Nat.le_of_not_lt hco)))]
        rcases Nat.lt_or_ge pre.length c with hoc | hoc
        · rw [if_pos hoc, ← hopen, sliceBytes?_byteLength_take _ hoc, Option.map_some,
            Option.elim_some]
        · obtain rfl : c = pre.length := by omega
          rw [if_neg (Nat.lt_irrefl _), sliceBytes?, if_neg (by omega)]
          rfl

/-- How the parameter list of a signature is found. It is missing when the signature has no `(`;
else when it has no `) RETURN ` marker; else when a marker comes before every `(`. Otherwise it
is the text between the first `(` and the first marker, and it never contains the marker. -/
theorem parameterList_spec (s : String) :
    (parameterList s = .error (.malformed s .missingOpen) ↔ '(' ∉ s.toList) ∧
    (parameterList s = .error (.malformed s .missingReturn) ↔
      '(' ∈ s.toList ∧ ¬ returnMarker <:+: s.toList) ∧
    (parameterList s = .error (.malformed s .returnBeforeOpen) ↔
      ∃ pre post, s.toList = pre ++ returnMarker ++ post ∧ '(' ∉ pre ∧ '(' ∈ post) ∧
    (∀ body, parameterList s = .ok body ↔ ∃ pre post,
      s.toList = pre ++ '(' :: body.toList ++ returnMarker ++ post ∧ '(' ∉ pre ∧
        ¬ returnMarker <:+: pre ++ '(' :: body.toList) ∧
    (∀ body, parameterList s = .ok body → ¬ returnMarker <:+: body.toList) := by
  have hshape := shapes s.toList
  have hok : ∀ body, parameterList s = .ok body ↔ ∃ pre post,
      s.toList = pre ++ '(' :: body.toList ++ returnMarker ++ post ∧ '(' ∉ pre ∧
        ¬ returnMarker <:+: pre ++ '(' :: body.toList := by
    intro body
    constructor
    · intro h
      rcases hshape with h1 | ⟨h2, h2'⟩ | ⟨pre, post, h3, h3', h3''⟩ | ⟨pre, b, post, h4, h4', h4''⟩
      · simp [parameterList_of_not_mem_open h1] at h
      · simp [parameterList_of_not_infix_marker h2 h2'] at h
      · simp [parameterList_of_marker_first h3 h3' h3''] at h
      · rw [parameterList_of_open_first h4 h4' h4'', Except.ok.injEq] at h
        subst h
        exact ⟨pre, post, by simpa using h4, h4', by simpa using h4''⟩
    · rintro ⟨pre, post, hs, hpre, hmarker⟩
      rw [parameterList_of_open_first hs hpre hmarker, String.ofList_toList]
  refine ⟨⟨fun h => ?_, parameterList_of_not_mem_open⟩, ⟨fun h => ?_, fun ⟨h, h'⟩ =>
    parameterList_of_not_infix_marker h h'⟩, ⟨fun h => ?_, fun ⟨pre, post, hs, hpre, hpost⟩ =>
    parameterList_of_marker_first hs hpre hpost⟩, hok, fun body h => ?_⟩
  · rcases hshape with h1 | ⟨h2, h2'⟩ | ⟨pre, post, h3, h3', h3''⟩ | ⟨pre, b, post, h4, h4', h4''⟩
    · exact h1
    · simp [parameterList_of_not_infix_marker h2 h2'] at h
    · simp [parameterList_of_marker_first h3 h3' h3''] at h
    · simp [parameterList_of_open_first h4 h4' h4''] at h
  · rcases hshape with h1 | h2 | ⟨pre, post, h3, h3', h3''⟩ | ⟨pre, b, post, h4, h4', h4''⟩
    · simp [parameterList_of_not_mem_open h1] at h
    · exact h2
    · simp [parameterList_of_marker_first h3 h3' h3''] at h
    · simp [parameterList_of_open_first h4 h4' h4''] at h
  · rcases hshape with h1 | ⟨h2, h2'⟩ | h3 | ⟨pre, b, post, h4, h4', h4''⟩
    · simp [parameterList_of_not_mem_open h1] at h
    · simp [parameterList_of_not_infix_marker h2 h2'] at h
    · exact h3
    · simp [parameterList_of_open_first h4 h4' h4''] at h
  · obtain ⟨pre, post, -, -, hmarker⟩ := (hok body).mp h
    have hsuffix : body.toList <:+ pre ++ '(' :: body.toList := ⟨pre ++ ['('], by simp⟩
    exact fun hin => hmarker (hin.trans hsuffix.isInfix)

end Introspect.Signature
