import Introspect.Text.Blank
import Introspect.Text.Basic

/-!
# Searching and trimming texts

Two kinds of fact about texts that the reading of signatures rests on.

Where a pattern cannot occur. A pattern that does not contain a character `c` occurs in
`xs ++ c :: ys` only if it occurs in `xs` or in `ys` (`not_infix_append_cons`); this is how a
separator confines a search to the pieces it separates. A pattern whose first character does not
come again in it cannot overlap itself, so its first occurrence in `xs ++ pat ++ ys` is the one
after `xs` as soon as it does not occur in `xs` (`firstIndex?_append_of_not_infix`). The marker
`) RETURN ` and the single `(` are such patterns.

What trimming keeps. A text whose first and last characters are not blank is its own trim
(`trim_eq_self`), and trimming keeps every character that is not blank, so a text with one is not
trimmed away (`trim_ne_nil`). Trimming the end takes off a run of blanks and nothing else
(`exists_blank_eq_trimEnd_append`).
-/

set_option autoImplicit false
set_option relaxedAutoImplicit false

namespace Introspect.Text

section Occurrence

variable {α : Type}

/-- A prefix of `xs ++ c :: ys` that does not contain `c` is a prefix of `xs`. -/
theorem prefix_of_prefix_append_cons {pat xs ys : List α} {c : α} (h : pat <+: xs ++ c :: ys)
    (hc : c ∉ pat) : pat <+: xs := by
  induction xs generalizing pat with
  | nil =>
    rcases List.prefix_cons_iff.mp h with rfl | ⟨t, rfl, -⟩
    · exact List.nil_prefix
    · exact absurd List.mem_cons_self hc
  | cons x xs ih =>
    rcases List.prefix_cons_iff.mp h with rfl | ⟨t, rfl, ht⟩
    · exact List.nil_prefix
    · exact List.cons_prefix_cons.mpr ⟨rfl, ih ht fun hm => hc (List.mem_cons_of_mem _ hm)⟩

/-- A pattern that does not contain `c` occurs in `xs ++ c :: ys` only within `xs` or `ys`. -/
theorem not_infix_append_cons {pat xs ys : List α} {c : α} (hc : c ∉ pat)
    (hxs : ¬ pat <:+: xs) (hys : ¬ pat <:+: ys) : ¬ pat <:+: xs ++ c :: ys := by
  induction xs with
  | nil =>
    intro h
    rcases List.infix_cons_iff.mp h with hp | hi
    · exact hxs (prefix_of_prefix_append_cons (hp : pat <+: [] ++ c :: ys) hc).isInfix
    · exact hys hi
  | cons x xs ih =>
    intro h
    rcases List.infix_cons_iff.mp h with hp | hi
    · exact hxs (prefix_of_prefix_append_cons (hp : pat <+: (x :: xs) ++ c :: ys) hc).isInfix
    · exact ih (fun h' => hxs (h'.trans (List.suffix_cons x xs).isInfix)) hi

/-- A pattern that does not start with `c` occurs in `c :: ys` only within `ys`. -/
theorem not_infix_cons {pat ys : List α} {c : α} (hc : pat.head? ≠ some c)
    (hys : ¬ pat <:+: ys) : ¬ pat <:+: c :: ys := by
  intro h
  rcases List.infix_cons_iff.mp h with hp | hi
  · rcases List.prefix_cons_iff.mp hp with rfl | ⟨t, rfl, -⟩
    · exact hys List.nil_infix
    · exact hc rfl
  · exact hys hi

/-- A pattern that does not end with `c` occurs in `xs ++ [c]` only within `xs`. -/
theorem not_infix_append_singleton {pat xs : List α} {c : α} (hc : pat.getLast? ≠ some c)
    (hxs : ¬ pat <:+: xs) : ¬ pat <:+: xs ++ [c] := by
  rw [← List.reverse_infix, List.reverse_append, List.reverse_singleton, List.singleton_append]
  exact not_infix_cons (by rwa [List.head?_reverse]) (by rwa [List.reverse_infix])

theorem not_infix_of_mem {pat xs : List α} {c : α} (hc : c ∈ pat) (hxs : c ∉ xs) :
    ¬ pat <:+: xs :=
  fun h => hxs (h.subset hc)

/-- A pattern whose first element does not come again in it cannot overlap itself: started in a
nonempty `u` just before a copy of itself, it ends within `u`. -/
theorem prefix_of_prefix_append_self {c : α} {t u ys : List α} (hc : c ∉ t) (hu : u ≠ [])
    (h : c :: t <+: u ++ c :: t ++ ys) : c :: t <+: u := by
  obtain ⟨u₀, u', rfl⟩ := List.exists_cons_of_ne_nil hu
  obtain ⟨rfl, ht⟩ := List.cons_prefix_cons.mp h
  replace ht : t <+: u' ++ c :: (t ++ ys) := by simpa using ht
  exact List.cons_prefix_cons.mpr ⟨rfl, prefix_of_prefix_append_cons ht hc⟩

end Occurrence

/-- The first occurrence of `pat` in `xs ++ ys` is right after `xs` when `ys` starts with it and
it starts at no position of `xs`. -/
theorem firstIndex?_append (pat xs ys : List Char)
    (hxs : ∀ i < xs.length, ¬ pat <+: (xs ++ ys).drop i) (hys : pat <+: ys) :
    firstIndex? pat (xs ++ ys) = some xs.length := by
  induction xs with
  | nil =>
    cases ys with
    | nil =>
      rw [List.prefix_nil.mp hys]
      rfl
    | cons y ys => simp [firstIndex?, List.isPrefixOf_iff_prefix.mpr hys]
  | cons x xs ih =>
    have hhead : pat.isPrefixOf (x :: (xs ++ ys)) = false :=
      Bool.eq_false_iff.mpr fun h => hxs 0 (Nat.succ_pos _) (List.isPrefixOf_iff_prefix.mp h)
    have htail := ih fun i hi => by simpa using hxs (i + 1) (Nat.succ_lt_succ hi)
    rw [List.cons_append, firstIndex?_cons_of_not_prefix _ _ _ hhead, htail]
    rfl

/-- A pattern that cannot overlap itself and does not occur in `xs` is first found right after
`xs` in `xs ++ pat ++ ys`. -/
theorem firstIndex?_append_of_not_infix {c : Char} {t : List Char} (xs ys : List Char)
    (hc : c ∉ t) (hxs : ¬ c :: t <:+: xs) :
    firstIndex? (c :: t) (xs ++ c :: t ++ ys) = some xs.length := by
  rw [List.append_assoc]
  refine firstIndex?_append _ _ _ (fun i hi hp => hxs ?_) (List.prefix_append _ _)
  rw [List.drop_append_of_le_length (Nat.le_of_lt hi), ← List.append_assoc] at hp
  have hu : xs.drop i ≠ [] := by
    rw [ne_eq, List.drop_eq_nil_iff]
    omega
  exact (prefix_of_prefix_append_self hc hu hp).isInfix.trans (List.drop_suffix i xs).isInfix

/-- The first occurrence of a pattern is the least position where it starts. -/
theorem firstIndex?_eq_some_iff {pat cs : List Char} {i : Nat} :
    firstIndex? pat cs = some i ↔ pat <+: cs.drop i ∧ ∀ j < i, ¬ pat <+: cs.drop j := by
  induction cs generalizing i with
  | nil =>
    cases pat with
    | nil =>
      cases i with
      | zero => simp [firstIndex?]
      | succ i =>
        have h0 : firstIndex? ([] : List Char) [] = some 0 := rfl
        rw [h0]
        exact ⟨fun h => absurd (Option.some.inj h) (Nat.succ_ne_zero i).symm,
          fun h => absurd List.nil_prefix (h.2 0 (Nat.succ_pos i))⟩
    | cons p ps => simp [firstIndex?]
  | cons c cs ih =>
    by_cases hp : pat <+: c :: cs
    · rw [firstIndex?, if_pos (List.isPrefixOf_iff_prefix.mpr hp)]
      cases i with
      | zero => simpa using hp
      | succ i =>
        exact ⟨fun h => absurd (Option.some.inj h) (Nat.succ_ne_zero i).symm,
          fun h => absurd hp (h.2 0 (Nat.succ_pos i))⟩
    · have hstep := firstIndex?_cons_of_not_prefix pat c cs
        (Bool.eq_false_iff.mpr (mt List.isPrefixOf_iff_prefix.mp hp))
      rw [hstep]
      cases i with
      | zero => simpa using hp
      | succ i =>
        rw [Option.map_eq_some_iff]
        simp only [Nat.add_right_cancel_iff, exists_eq_right, ih, List.drop_succ_cons]
        refine and_congr_right fun _ => ⟨fun h j hj => ?_, fun h j hj => ?_⟩
        · cases j with
          | zero => exact hp
          | succ j => exact h j (by omega)
        · simpa using h (j + 1) (by omega)

/-- A pattern is not found exactly when it does not occur. -/
theorem firstIndex?_eq_none_iff {pat cs : List Char} :
    firstIndex? pat cs = none ↔ ¬ pat <:+: cs := by
  induction cs with
  | nil => cases pat <;> simp [firstIndex?]
  | cons c cs ih =>
    rw [List.infix_cons_iff, not_or, ← ih]
    by_cases hp : pat <+: c :: cs
    · simp [firstIndex?, List.isPrefixOf_iff_prefix.mpr hp, hp]
    · have hstep := firstIndex?_cons_of_not_prefix pat c cs
        (Bool.eq_false_iff.mpr (mt List.isPrefixOf_iff_prefix.mp hp))
      rw [hstep]
      simp [hp]

/-- A pattern that cannot overlap itself is first found at `i` exactly when the text is the
pattern between a text of length `i` that does not contain it and a rest. -/
theorem firstIndex?_eq_some_iff_append {c : Char} {t cs : List Char} (hc : c ∉ t) {i : Nat} :
    firstIndex? (c :: t) cs = some i ↔
      ∃ pre post, cs = pre ++ c :: t ++ post ∧ ¬ c :: t <:+: pre ∧ pre.length = i := by
  constructor
  · intro h
    obtain ⟨⟨post, hpost⟩, hmin⟩ := firstIndex?_eq_some_iff.mp h
    have hlen : i < cs.length := by
      have := congrArg List.length hpost
      simp only [List.length_append, List.length_cons, List.length_drop] at this
      omega
    refine ⟨cs.take i, post, ?_, ?_, by simp; omega⟩
    · rw [List.append_assoc, hpost, List.take_append_drop]
    · rintro ⟨s, u, hsu⟩
      have hs : s.length < i := by
        have := congrArg List.length hsu
        simp only [List.length_append, List.length_cons, List.length_take] at this
        omega
      have hdrop : cs.drop s.length = c :: t ++ (u ++ cs.drop i) := by
        conv => lhs; rw [← List.take_append_drop i cs, ← hsu]
        simp
      exact hmin s.length hs ⟨u ++ cs.drop i, hdrop.symm⟩
  · rintro ⟨pre, post, rfl, hpre, rfl⟩
    exact firstIndex?_append_of_not_infix pre post hc hpre

/-! ### What trimming keeps -/

theorem mem_dropWhile_of_not {p : Char → Bool} {c : Char} {cs : List Char} (hc : c ∈ cs)
    (hp : p c = false) : c ∈ cs.dropWhile p := by
  induction cs with
  | nil => simp at hc
  | cons d ds ih =>
    by_cases hd : p d = true
    · rw [List.dropWhile_cons_of_pos hd]
      rcases List.mem_cons.mp hc with rfl | hmem
      · simp [hp] at hd
      · exact ih hmem
    · rw [List.dropWhile_cons_of_neg hd]
      exact hc

/-- Trimming keeps every character that is not blank. -/
theorem mem_trim {c : Char} {cs : List Char} (hc : c ∈ cs) (hb : isBlank c = false) :
    c ∈ trim cs := by
  have hstart : c ∈ trimStart cs := mem_dropWhile_of_not hc hb
  rw [trim, trimEnd, List.mem_reverse]
  exact mem_dropWhile_of_not (List.mem_reverse.mpr hstart) hb

theorem trim_ne_nil {c : Char} {cs : List Char} (hc : c ∈ cs) (hb : isBlank c = false) :
    trim cs ≠ [] :=
  List.ne_nil_of_mem (mem_trim hc hb)

theorem trimStart_eq_self {cs : List Char} (hhead : ∀ c ∈ cs.head?, isBlank c = false) :
    trimStart cs = cs := by
  cases cs with
  | nil => rfl
  | cons c cs => simp [trimStart, hhead c rfl]

theorem trimEnd_eq_self {cs : List Char} (hlast : ∀ c ∈ cs.getLast?, isBlank c = false) :
    trimEnd cs = cs := by
  have hrev : cs.reverse.dropWhile isBlank = cs.reverse := by
    cases h : cs.reverse with
    | nil => rfl
    | cons c rest =>
      have hc : cs.getLast? = some c := by rw [← List.head?_reverse, h]; rfl
      simp [hlast c hc]
  rw [trimEnd, hrev, List.reverse_reverse]

/-- Trimming the end takes off blank characters only. -/
theorem exists_blank_eq_trimEnd_append (cs : List Char) :
    ∃ w, (∀ c ∈ w, isBlank c = true) ∧ cs = trimEnd cs ++ w := by
  have hsplit : cs.reverse.takeWhile isBlank ++ cs.reverse.dropWhile isBlank = cs.reverse :=
    List.takeWhile_append_dropWhile
  refine ⟨(cs.reverse.takeWhile isBlank).reverse, fun c hc => ?_, ?_⟩
  · exact List.all_eq_true.mp List.all_takeWhile c (List.mem_reverse.mp hc)
  · calc cs = (cs.reverse.takeWhile isBlank ++ cs.reverse.dropWhile isBlank).reverse := by
          rw [hsplit, List.reverse_reverse]
      _ = trimEnd cs ++ (cs.reverse.takeWhile isBlank).reverse := by
          rw [List.reverse_append]
          rfl

/-- A text that starts and ends with characters that are not blank is its own trim. -/
theorem trim_eq_self {cs : List Char} (hhead : ∀ c ∈ cs.head?, isBlank c = false)
    (hlast : ∀ c ∈ cs.getLast?, isBlank c = false) : trim cs = cs := by
  rw [trim, trimStart_eq_self hhead, trimEnd_eq_self hlast]

theorem trim_cons_blank {c : Char} (cs : List Char) (hc : isBlank c = true) :
    trim (c :: cs) = trim cs := by
  rw [trim, trimStart_cons_blank cs c hc, ← trim]

end Introspect.Text
