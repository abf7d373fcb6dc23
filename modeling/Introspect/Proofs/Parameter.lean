import Introspect.Signature.Parameter
import Introspect.Proofs.Utf8
import Mathlib.Data.List.TakeWhile

/-!
# How a declared parameter splits its segment

A segment is split in two steps. One leading `DEFAULT ` marker is taken off, exactly when the
segment starts with it, and nothing else is lost (`stripDefault_fst_iff`, `stripDefault_append`).
The rest is cut at its first `(`: the qualifier is everything from there on, and the type name
everything before, without its trailing blanks (`splitQualifier_append`); a rest without `(` is
all type name (`splitQualifier_of_not_mem`).

So the segment is the marker, the type name, a run of blanks and the qualifier, in that order,
with blanks only where a qualifier follows (`ofSegment_spec`). The type name never holds a `(`,
and a qualifier always starts with one.

Searched and cut by bytes, the split is the same (`splitQualifier_eq_bytes`): the first `(` is
found at a byte offset between two characters, so neither cut there fails.
-/

set_option autoImplicit false
set_option relaxedAutoImplicit false

namespace Introspect.Signature

variable {cs : List Char}

theorem firstOpen_eq_none_iff : Text.firstIndex? ['('] cs = none ↔ '(' ∉ cs := by
  rw [Text.firstIndex?_eq_none_iff, List.singleton_infix_iff]

/-- The first `(` stands after a text without `(`. -/
theorem firstOpen_eq_some_iff {o : Nat} :
    Text.firstIndex? ['('] cs = some o ↔ ∃ pre post, cs = pre ++ '(' :: post ∧ '(' ∉ pre ∧ pre.length = o := by
  rw [Text.firstIndex?_eq_some_iff_append (List.not_mem_nil)]
  simp only [List.singleton_infix_iff, List.append_assoc, List.cons_append, List.nil_append]

namespace Parameter

variable {segment : String}

theorem ofSegment_typeName :
    (ofSegment segment).typeName = String.ofList (splitQualifier (stripDefault segment.toList).2).1 :=
  rfl

theorem ofSegment_qualifier :
    (ofSegment segment).qualifier =
      (splitQualifier (stripDefault segment.toList).2).2.map String.ofList := rfl

/-- The marker is taken off exactly when the text starts with it. -/
theorem stripDefault_fst_iff : (stripDefault cs).1 = true ↔ defaultMarker <+: cs := by
  unfold stripDefault
  split <;> simp_all [List.isPrefixOf_iff_prefix]

/-- Taking off the marker loses nothing else. -/
theorem stripDefault_append :
    (if (stripDefault cs).1 then defaultMarker else []) ++ (stripDefault cs).2 = cs := by
  unfold stripDefault
  split
  · rename_i h
    simpa using (List.prefix_iff_eq_append.mp (List.isPrefixOf_iff_prefix.mp h))
  · rfl

/-- Without a `(` the whole text is the type name. -/
theorem splitQualifier_of_not_mem (h : '(' ∉ cs) : splitQualifier cs = (cs, none) := by
  have hdrop : cs.dropWhile (· ≠ '(') = [] :=
    List.dropWhile_eq_nil_iff.mpr fun c hc => by
      simpa using fun hc' : c = '(' => h (hc' ▸ hc)
  rw [splitQualifier, hdrop]

/-- The qualifier starts at the first `(`, and the type name is what stands before it, without its
trailing blanks. -/
theorem splitQualifier_append {before after : List Char} (h : '(' ∉ before) :
    splitQualifier (before ++ '(' :: after) = (Text.trimEnd before, some ('(' :: after)) := by
  have hplain : ∀ c ∈ before, decide (c ≠ '(') = true := fun c hc => by
    simpa using fun hc' : c = '(' => h (hc' ▸ hc)
  have hdrop : (before ++ '(' :: after).dropWhile (· ≠ '(') = '(' :: after := by
    rw [List.dropWhile_append_of_pos hplain, List.dropWhile_cons_of_neg (by simp)]
  have htake : (before ++ '(' :: after).takeWhile (· ≠ '(') = before := by
    rw [List.takeWhile_append_of_pos hplain, List.takeWhile_cons_of_neg (by simp), List.append_nil]
  rw [splitQualifier, hdrop]
  simp only [htake]

/-- The split as a search and two cuts by byte offsets make it. The first `(` is found at the byte
length of the text before it, which falls between two characters, so both cuts there succeed:
the type name is never the whole text for want of a cut, and a qualifier is never lost. -/
theorem splitQualifier_eq_bytes (cs : List Char) :
    splitQualifier cs =
      (Text.firstByteIndex? ['('] cs).elim (cs, none) fun idx =>
        (Text.trimEnd ((Text.takeBytes? idx cs).getD cs), Text.dropBytes? idx cs) := by
  rw [Text.firstByteIndex?_eq]
  cases hfirst : Text.firstIndex? ['('] cs with
  | none => rw [Option.map_none, Option.elim_none, splitQualifier_of_not_mem
      (firstOpen_eq_none_iff.mp hfirst)]
  | some i =>
    rw [Option.map_some, Option.elim_some, Text.takeBytes?_byteLength_take,
      Text.dropBytes?_byteLength_take, Option.getD_some]
    obtain ⟨before, after, rfl, hbefore, rfl⟩ := firstOpen_eq_some_iff.mp hfirst
    rw [List.take_left, List.drop_left, splitQualifier_append hbefore]

/-- A text either has no `(`, or has a first one. -/
theorem not_mem_or_exists_first (cs : List Char) :
    '(' ∉ cs ∨ ∃ before after, cs = before ++ '(' :: after ∧ '(' ∉ before := by
  cases hfirst : Text.firstIndex? ['('] cs with
  | none => exact .inl (firstOpen_eq_none_iff.mp hfirst)
  | some i =>
    obtain ⟨before, after, hcs, hbefore, -⟩ := firstOpen_eq_some_iff.mp hfirst
    exact .inr ⟨before, after, hcs, hbefore⟩

/-- Without a `(` after the marker, the rest is the type name and there is no qualifier. -/
theorem ofSegment_of_not_mem (h : '(' ∉ (stripDefault segment.toList).2) :
    (ofSegment segment).typeName.toList = (stripDefault segment.toList).2 ∧
      (ofSegment segment).qualifier = none := by
  rw [ofSegment_typeName, ofSegment_qualifier, splitQualifier_of_not_mem h]
  exact ⟨String.toList_ofList, rfl⟩

/-- With a first `(` after the marker, the qualifier starts there. -/
theorem ofSegment_of_eq_append {before after : List Char}
    (hrest : (stripDefault segment.toList).2 = before ++ '(' :: after) (h : '(' ∉ before) :
    (ofSegment segment).typeName.toList = Text.trimEnd before ∧
      (ofSegment segment).qualifier = some (String.ofList ('(' :: after)) := by
  rw [ofSegment_typeName, ofSegment_qualifier, hrest, splitQualifier_append h]
  exact ⟨String.toList_ofList, rfl⟩

/-- A declared parameter splits its segment losing nothing but blanks. It has a default exactly
when the segment starts with `DEFAULT `; the rest follows that one marker. When the rest has a `(`,
the qualifier is the rest from its first `(` on, and the type name is what stands before, without
trailing blanks; otherwise the type name is the whole rest and there is no qualifier. So the
segment is the marker, the type name, blanks (none without a qualifier) and the qualifier; the
type name has no `(`, and a qualifier starts with one. -/
theorem ofSegment_spec (segment : String) :
    ((ofSegment segment).hasDefault = true ↔ "DEFAULT ".toList <+: segment.toList) ∧
    (∀ rest, segment.toList =
        (if (ofSegment segment).hasDefault then "DEFAULT ".toList else []) ++ rest →
      (∀ before after, rest = before ++ '(' :: after → '(' ∉ before →
        (ofSegment segment).typeName.toList = Text.trimEnd before ∧
        (ofSegment segment).qualifier = some (String.ofList ('(' :: after))) ∧
      ('(' ∉ rest →
        (ofSegment segment).typeName.toList = rest ∧ (ofSegment segment).qualifier = none)) ∧
    (∃ w, (∀ c ∈ w, Text.isBlank c = true) ∧ ((ofSegment segment).qualifier = none → w = []) ∧
      segment.toList = (if (ofSegment segment).hasDefault then "DEFAULT ".toList else []) ++
        (ofSegment segment).typeName.toList ++ w ++ ((ofSegment segment).qualifier.getD "").toList) ∧
    '(' ∉ (ofSegment segment).typeName.toList ∧
    (∀ q, (ofSegment segment).qualifier = some q → q.toList.head? = some '(') := by
  have hsplit : (if (ofSegment segment).hasDefault then "DEFAULT ".toList else []) ++
      (stripDefault segment.toList).2 = segment.toList := stripDefault_append
  refine ⟨stripDefault_fst_iff, fun rest hrest => ?_, ?_⟩
  · obtain rfl : rest = (stripDefault segment.toList).2 :=
      List.append_cancel_left (hrest.symm.trans hsplit.symm)
    exact ⟨fun _ _ hcs hb => ofSegment_of_eq_append hcs hb, ofSegment_of_not_mem⟩
  rcases not_mem_or_exists_first (stripDefault segment.toList).2 with hnone | ⟨before, after, hcs, hb⟩
  · obtain ⟨hname, hq⟩ := ofSegment_of_not_mem hnone
    refine ⟨⟨[], by simp, fun _ => rfl, ?_⟩, hname ▸ hnone, by simp [hq]⟩
    rw [hname, hq, Option.getD_none, String.toList_empty, List.append_nil, List.append_nil]
    exact hsplit.symm
  · obtain ⟨hname, hq⟩ := ofSegment_of_eq_append hcs hb
    obtain ⟨w, hw, hbefore⟩ := Text.exists_blank_eq_trimEnd_append before
    have htrimmed : Text.trimEnd before <+: before := ⟨w, hbefore.symm⟩
    refine ⟨⟨w, hw, by simp [hq], ?_⟩, hname ▸ fun hmem => hb (htrimmed.subset hmem), ?_⟩
    · have hqualifier : ((ofSegment segment).qualifier.getD "").toList = '(' :: after := by
        rw [hq, Option.getD_some, String.toList_ofList]
      rw [hname, hqualifier, ← hsplit, hcs, List.append_assoc, List.append_assoc,
        ← List.append_assoc (Text.trimEnd before), ← hbefore]
    · rintro q hq'
      rw [hq, Option.some.injEq] at hq'
      rw [← hq', String.toList_ofList]
      rfl

/-- The ideographic space before a qualifier is blank, so it leaves the type name. -/
example : ofSegment "DEFAULT NUMBER\u3000(38, 0)" =
    ⟨"DEFAULT NUMBER\u3000(38, 0)", true, "NUMBER", some "(38, 0)"⟩ := by
  decide

end Parameter

end Introspect.Signature
