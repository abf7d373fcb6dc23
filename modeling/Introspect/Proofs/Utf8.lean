import Introspect.Proofs.Text
import Mathlib.Data.List.Infix

/-!
# The UTF-8 encoding of texts

A text's bytes are the UTF-8 encodings of its characters, one after another (`utf8Bytes`); a
character takes `Char.utf8Size` of them, so a prefix of the text takes `byteLength` of them. Each
encoding is a lead byte followed by continuation bytes, those of the form `10xxxxxx`, and the lead
byte is never one of them (`utf8EncodeChar_eq_cons`).

Order. UTF-8 keeps the order of code points: the lead byte grows with the code point and with the
length of the encoding, and the continuation bytes are the next digits in base 64. So the order of
texts is also the order of their bytes (`lt_iff_bytes_lt`).

Prefixes. Two encodings that start one byte list are the same character's, since a smaller
character's encoding sorts first whatever follows (`utf8EncodeChar_append_inj`). So a text's bytes
start with a pattern's bytes exactly when the text starts with the pattern (`utf8Bytes_prefix_iff`).

Searching by bytes. A byte offset into a text either is the byte length of a prefix, where a
character starts, or holds a continuation byte (`byteLength_take_or_continuation`). A pattern's
bytes start with a lead byte, so a search among the bytes (`firstByteIndex?`) finds the pattern
where a search among the characters does, at the byte length of the text before it
(`firstByteIndex?_eq`). An offset found that way falls between two characters, where cutting by
bytes reads the characters on either side (`takeBytes?_byteLength_take`,
`dropBytes?_byteLength_take`, `sliceBytes?_byteLength_take`).
-/

set_option autoImplicit false
set_option relaxedAutoImplicit false

namespace Introspect.Text

/-- The UTF-8 bytes of a text. -/
def utf8Bytes (cs : List Char) : List UInt8 := cs.flatMap String.utf8EncodeChar

/-- A continuation byte of UTF-8, of the form `10xxxxxx`. -/
def IsContinuationByte (b : UInt8) : Prop := b.toNat / 64 = 2

/-- The byte offset of the first occurrence of a pattern in a text, searched for among their UTF-8
bytes: the least offset from which the text's bytes go on with the pattern's. -/
def firstByteIndex? (pat cs : List Char) : Option Nat :=
  (List.range ((utf8Bytes cs).length + 1)).find? fun i =>
    (utf8Bytes pat).isPrefixOf ((utf8Bytes cs).drop i)

@[simp] theorem utf8Bytes_nil : utf8Bytes [] = [] := rfl

@[simp] theorem utf8Bytes_cons (c : Char) (cs : List Char) :
    utf8Bytes (c :: cs) = String.utf8EncodeChar c ++ utf8Bytes cs :=
  List.flatMap_cons

@[simp] theorem utf8Bytes_append (cs ds : List Char) :
    utf8Bytes (cs ++ ds) = utf8Bytes cs ++ utf8Bytes ds :=
  List.flatMap_append

@[simp] theorem length_utf8Bytes (cs : List Char) : (utf8Bytes cs).length = byteLength cs := by
  induction cs with
  | nil => rfl
  | cons c cs ih => simp [ih]

theorem codePoint_lt (c : Char) : c.val.toNat < 0x110000 := by
  have h := c.valid
  simp only [UInt32.isValidChar, Nat.isValidChar] at h
  omega

/-- An encoding is a lead byte that is not a continuation byte, then continuation bytes. -/
theorem utf8EncodeChar_eq_cons (c : Char) :
    ∃ lead conts, String.utf8EncodeChar c = lead :: conts ∧ ¬ IsContinuationByte lead ∧
      ∀ b ∈ conts, IsContinuationByte b := by
  have hc := codePoint_lt c
  unfold String.utf8EncodeChar IsContinuationByte
  dsimp only
  repeat' split
  all_goals
    refine ⟨_, _, rfl, ?_, ?_⟩ <;>
      simp only [List.mem_cons, List.not_mem_nil, or_false, false_implies, implies_true,
        forall_eq_or_imp, forall_eq, UInt8.toNat_ofNat', Nat.reducePow] <;>
      omega

/-! ### Order -/

/-- A smaller character's encoding sorts first, whatever bytes follow either. The proof takes one
case per pair of encoding lengths, each comparing digits in base 64; splitting on the leading two
digits first keeps `omega` fast on two four-byte encodings. -/
theorem utf8EncodeChar_append_lt {c d : Char} (h : c < d) (r s : List UInt8) :
    String.utf8EncodeChar c ++ r < String.utf8EncodeChar d ++ s := by
  have hc := codePoint_lt c
  have hd := codePoint_lt d
  rw [Char.lt_def, UInt32.lt_iff_toNat_lt] at h
  unfold String.utf8EncodeChar
  dsimp only
  repeat' split
  all_goals
    simp only [List.cons_append, List.nil_append, List.cons_lt_cons_iff, UInt8.lt_iff_toNat_lt,
      ← UInt8.toNat_inj, UInt8.toNat_ofNat']
    rcases Nat.lt_trichotomy (c.val.toNat / 4096) (d.val.toNat / 4096) with h' | h' | h' <;>
      omega

theorem flatMap_utf8EncodeChar_lt {cs ds : List Char} (h : cs < ds) :
    cs.flatMap String.utf8EncodeChar < ds.flatMap String.utf8EncodeChar := by
  induction h with
  | @nil d ds =>
    obtain ⟨b, bs, hb⟩ := List.exists_cons_of_ne_nil (@String.utf8EncodeChar_ne_nil d)
    simp [hb, List.nil_lt_cons]
  | cons h ih => simpa only [List.flatMap_cons] using List.append_left_lt ih
  | rel h => simpa only [List.flatMap_cons] using utf8EncodeChar_append_lt h _ _

theorem flatMap_utf8EncodeChar_lt_iff {cs ds : List Char} :
    cs.flatMap String.utf8EncodeChar < ds.flatMap String.utf8EncodeChar ↔ cs < ds := by
  refine ⟨fun h => Classical.byContradiction fun hn => ?_, flatMap_utf8EncodeChar_lt⟩
  rcases List.le_iff_lt_or_eq.mp (List.not_lt.mp hn) with hlt | rfl
  · exact List.lt_asymm h (flatMap_utf8EncodeChar_lt hlt)
  · exact List.lt_irrefl _ h

/-- Texts are in the order of their UTF-8 bytes. -/
theorem lt_iff_bytes_lt {a b : String} :
    a < b ↔ a.toByteArray.data.toList < b.toByteArray.data.toList := by
  rw [← String.utf8Encode_toList, ← String.utf8Encode_toList]
  simp only [List.utf8Encode, List.toList_data_toByteArray]
  exact flatMap_utf8EncodeChar_lt_iff.symm

/-! ### Prefixes -/

/-- Encodings form a prefix code: one byte list starts with the encoding of one character only. -/
theorem utf8EncodeChar_append_inj {c d : Char} {r s : List UInt8}
    (h : String.utf8EncodeChar c ++ r = String.utf8EncodeChar d ++ s) : c = d ∧ r = s := by
  have hne : ∀ {a b : Char} {u v : List UInt8}, a.toNat < b.toNat →
      String.utf8EncodeChar a ++ u ≠ String.utf8EncodeChar b ++ v := fun hab huv =>
    List.lt_irrefl _ (huv ▸ utf8EncodeChar_append_lt
      ((Char.lt_def.trans UInt32.lt_iff_toNat_lt).mpr hab) _ _)
  rcases Nat.lt_trichotomy c.toNat d.toNat with hcd | hcd | hcd
  · exact absurd h (hne hcd)
  · obtain rfl := Char.toNat_inj.mp hcd
    exact ⟨rfl, List.append_cancel_left h⟩
  · exact absurd h.symm (hne hcd)

/-- A text's bytes start with a pattern's bytes exactly when the text starts with the pattern. -/
theorem utf8Bytes_prefix_iff {pat cs : List Char} : utf8Bytes pat <+: utf8Bytes cs ↔ pat <+: cs := by
  refine ⟨fun h => ?_, fun ⟨t, ht⟩ => ⟨utf8Bytes t, by rw [← ht, utf8Bytes_append]⟩⟩
  induction pat generalizing cs with
  | nil => exact List.nil_prefix
  | cons p ps ih =>
    obtain ⟨t, ht⟩ := h
    cases cs with
    | nil => simp at ht
    | cons c cs =>
      simp only [utf8Bytes_cons, List.append_assoc] at ht
      obtain ⟨rfl, hrest⟩ := utf8EncodeChar_append_inj ht
      exact List.cons_prefix_cons.mpr ⟨rfl, ih ⟨t, hrest⟩⟩

/-- A pattern's bytes never go on from a continuation byte. -/
theorem isPrefixOf_utf8Bytes_of_continuation {pat : List Char} (hpat : pat ≠ []) {b : UInt8}
    (hb : IsContinuationByte b) (rest : List UInt8) :
    (utf8Bytes pat).isPrefixOf (b :: rest) = false := by
  obtain ⟨p, ps, rfl⟩ := List.exists_cons_of_ne_nil hpat
  obtain ⟨lead, conts, henc, hlead, -⟩ := utf8EncodeChar_eq_cons p
  simp only [utf8Bytes_cons, henc, List.cons_append, List.isPrefixOf, Bool.and_eq_false_iff,
    beq_eq_false_iff_ne]
  exact .inl fun heq => hlead (heq ▸ hb)

/-! ### Byte offsets -/

theorem byteLength_le_of_prefix {cs ds : List Char} (h : cs <+: ds) :
    byteLength cs ≤ byteLength ds := by
  obtain ⟨t, rfl⟩ := h
  simp

theorem byteLength_take_le (cs : List Char) (i : Nat) : byteLength (cs.take i) ≤ byteLength cs :=
  byteLength_le_of_prefix (List.take_prefix i cs)

theorem byteLength_take_mono (cs : List Char) {i j : Nat} (hij : i ≤ j) :
    byteLength (cs.take i) ≤ byteLength (cs.take j) :=
  byteLength_le_of_prefix (List.take_prefix_take_left hij)

theorem byteLength_pos {cs : List Char} (h : cs ≠ []) : 0 < byteLength cs := by
  obtain ⟨c, cs, rfl⟩ := List.exists_cons_of_ne_nil h
  have := c.utf8Size_pos
  rw [byteLength_cons]
  omega

theorem take_append_drop_take (cs : List Char) {i j : Nat} (hij : i ≤ j) :
    cs.take i ++ (cs.take j).drop i = cs.take j := by
  conv_rhs => rw [← List.take_append_drop i (cs.take j)]
  rw [List.take_take, Nat.min_eq_left hij]

theorem byteLength_take_succ {cs : List Char} {i : Nat} {c : Char} (h : cs[i]? = some c) :
    byteLength (cs.take (i + 1)) = byteLength (cs.take i) + c.utf8Size := by
  rw [List.take_add_one, h, byteLength_append]
  simp

/-- Every character takes at least one byte, so a longer prefix takes more bytes. -/
theorem byteLength_take_lt (cs : List Char) {i j : Nat} (hij : i < j) (hj : j ≤ cs.length) :
    byteLength (cs.take i) < byteLength (cs.take j) := by
  have hne : (cs.take j).drop i ≠ [] := by
    rw [← List.length_pos_iff, List.length_drop, List.length_take]
    omega
  rw [← take_append_drop_take cs hij.le, byteLength_append]
  have := byteLength_pos hne
  omega

/-- The bytes after a prefix are those of the rest of the text. -/
theorem utf8Bytes_drop_byteLength_take (cs : List Char) (k : Nat) :
    (utf8Bytes cs).drop (byteLength (cs.take k)) = utf8Bytes (cs.drop k) := by
  have hsplit : utf8Bytes cs = utf8Bytes (cs.take k) ++ utf8Bytes (cs.drop k) := by
    rw [← utf8Bytes_append, List.take_append_drop]
  rw [hsplit, ← length_utf8Bytes, List.drop_left]

/-- A byte offset into a text falls between two characters, at the byte length of a prefix, or on a
continuation byte. The induction is on the text: an offset inside the first encoding holds one of
its continuation bytes. -/
theorem byteLength_take_or_continuation (cs : List Char) {j : Nat} (hj : j ≤ byteLength cs) :
    (∃ k, j = byteLength (cs.take k)) ∨
      ∃ b rest, (utf8Bytes cs).drop j = b :: rest ∧ IsContinuationByte b := by
  induction cs generalizing j with
  | nil => exact .inl ⟨0, by simpa using hj⟩
  | cons c cs ih =>
    obtain ⟨lead, conts, henc, -, hconts⟩ := utf8EncodeChar_eq_cons c
    have hsize : c.utf8Size = conts.length + 1 := by
      rw [← String.length_utf8EncodeChar, henc, List.length_cons]
    rw [byteLength_cons] at hj
    rcases Nat.lt_or_ge j c.utf8Size with hlt | hge
    · cases j with
      | zero => exact .inl ⟨0, by simp⟩
      | succ j =>
        have hjc : j < conts.length := by omega
        refine .inr ⟨conts[j], conts.drop (j + 1) ++ utf8Bytes cs, ?_,
          hconts _ (List.getElem_mem hjc)⟩
        rw [utf8Bytes_cons, henc, List.cons_append, List.drop_succ_cons,
          List.drop_append_of_le_length hjc.le, List.drop_eq_getElem_cons hjc, List.cons_append]
    · have hdrop : (utf8Bytes (c :: cs)).drop j = (utf8Bytes cs).drop (j - c.utf8Size) := by
        rw [utf8Bytes_cons, List.drop_append, List.drop_eq_nil_of_le (by simpa using hge),
          List.nil_append, String.length_utf8EncodeChar]
      rcases ih (j := j - c.utf8Size) (by omega) with ⟨k, hk⟩ | ⟨b, rest, hb, hcont⟩
      · exact .inl ⟨k + 1, by simp only [List.take_succ_cons, byteLength_cons]; omega⟩
      · exact .inr ⟨b, rest, hdrop ▸ hb, hcont⟩

/-- From the byte length of a prefix, the text's bytes go on with a pattern's exactly when the rest
of the text goes on with the pattern. -/
theorem isPrefixOf_drop_byteLength_take (pat cs : List Char) (k : Nat) :
    (utf8Bytes pat).isPrefixOf ((utf8Bytes cs).drop (byteLength (cs.take k))) = true ↔
      pat <+: cs.drop k := by
  rw [List.isPrefixOf_iff_prefix, utf8Bytes_drop_byteLength_take, utf8Bytes_prefix_iff]

/-- A pattern's bytes go on from a byte offset only where the pattern starts among the characters:
any other offset either is not where the pattern starts or holds a continuation byte. -/
theorem isPrefixOf_drop_eq_false {pat cs : List Char} (hpat : pat ≠ []) {j : Nat}
    (hj : j ≤ byteLength cs) (hk : ∀ k, j = byteLength (cs.take k) → ¬ pat <+: cs.drop k) :
    (utf8Bytes pat).isPrefixOf ((utf8Bytes cs).drop j) = false := by
  rcases byteLength_take_or_continuation cs hj with ⟨k, rfl⟩ | ⟨b, rest, hb, hcont⟩
  · exact Bool.eq_false_iff.mpr fun h => hk k rfl ((isPrefixOf_drop_byteLength_take pat cs k).mp h)
  · rw [hb]
    exact isPrefixOf_utf8Bytes_of_continuation hpat hcont rest

/-- A pattern is found among a text's bytes where it is found among its characters, at the byte
length of the text before it. -/
theorem firstByteIndex?_eq (pat cs : List Char) :
    firstByteIndex? pat cs = (firstIndex? pat cs).map fun i => byteLength (cs.take i) := by
  rw [firstByteIndex?, length_utf8Bytes]
  cases hfirst : firstIndex? pat cs with
  | none =>
    have hnot := firstIndex?_eq_none_iff.mp hfirst
    have hpat : pat ≠ [] := fun h => hnot (h ▸ List.nil_infix)
    rw [Option.map_none, List.find?_range_eq_none]
    intro j hj
    rw [isPrefixOf_drop_eq_false hpat (by omega) fun k _ hk =>
      hnot (hk.isInfix.trans (List.drop_suffix k cs).isInfix)]
    rfl
  | some i =>
    obtain ⟨hpre, hmin⟩ := firstIndex?_eq_some_iff.mp hfirst
    have hi := byteLength_take_le cs i
    rw [Option.map_some, List.find?_range_eq_some]
    refine ⟨(isPrefixOf_drop_byteLength_take pat cs i).mpr hpre, List.mem_range.mpr (by omega),
      fun j hj => ?_⟩
    have hpat : pat ≠ [] := by
      rintro rfl
      obtain rfl : i = 0 := Nat.eq_zero_of_not_pos fun hi => hmin 0 hi List.nil_prefix
      simp at hj
    have hbefore : ∀ k, j = byteLength (cs.take k) → ¬ pat <+: cs.drop k := by
      rintro k rfl
      exact hmin k (Nat.lt_of_not_le fun hik => absurd hj (Nat.not_lt.mpr
        (byteLength_take_mono cs hik)))
    rw [isPrefixOf_drop_eq_false hpat (by omega) hbefore]
    rfl

/-- Past a two-byte letter the `(` is found three bytes in. -/
example : firstByteIndex? ['('] "ÅB(".toList = some 3 := by
  decide

/-! ### Cutting at byte offsets -/

theorem takeBytes?_byteLength_take (cs : List Char) (i : Nat) :
    takeBytes? (byteLength (cs.take i)) cs = some (cs.take i) := by
  have h := takeBytes?_byteLength_append (cs.take i) (cs.drop i)
  rwa [List.take_append_drop] at h

theorem dropBytes?_byteLength_take (cs : List Char) (i : Nat) :
    dropBytes? (byteLength (cs.take i)) cs = some (cs.drop i) := by
  have h := dropBytes?_append (cs.take i) (cs.drop i)
  rwa [List.take_append_drop] at h

/-- Cutting between the byte lengths of two prefixes reads the characters between them. -/
theorem sliceBytes?_byteLength_take (cs : List Char) {i j : Nat} (hij : i ≤ j) :
    sliceBytes? cs (byteLength (cs.take i)) (byteLength (cs.take j)) = some ((cs.take j).drop i) := by
  have htake := take_append_drop_take cs hij
  have hsplit : cs.take i ++ (cs.take j).drop i ++ cs.drop j = cs := by
    rw [htake, List.take_append_drop]
  have hlen : byteLength (cs.take i) + byteLength ((cs.take j).drop i) = byteLength (cs.take j) := by
    rw [← byteLength_append, htake]
  have hslice := sliceBytes?_append (cs.take i) ((cs.take j).drop i) (cs.drop j)
  rwa [hsplit, hlen] at hslice

end Introspect.Text
