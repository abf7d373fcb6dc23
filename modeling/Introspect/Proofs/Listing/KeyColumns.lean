import Introspect.Proofs.Listing.ColumnLists
import Introspect.Proofs.Listing.ForeignKey
import Introspect.Proofs.Sorting.Naturality
import Mathlib.Data.List.Forall2

/-!
# Key columns read as text

`primaryKeyColumns` and `uniqueKeyColumns` are the column lists of a key listing with every
column name read as text: the first is `orderedColumnList` over `key_sequence` and `column_name`,
the second `groupedColumnLists` grouped by `constraint_name`. Reading a cell as text fails when
the row lacks the column, and when it holds another kind of cell (`Row.requireText_eq`).

The two read their texts at different stages. A primary key reads the position and the text of
each row before sorting, in listing order (`primaryKeyColumns_eq`); unique keys read their texts
after grouping and sorting, group after group (`uniqueKeyColumns_eq`), and grouping keeps every
row of the listing (`mem_flatMap_groupsByPosition`). Since the sort sees its entries only through
their positions (`Sorting.stableSort_map`), sorting cells and then reading their texts is sorting
the texts (`sortByPosition_map`).

So where every column name present is text, a read as text fails exactly where a plain read
fails, and both lists are the generic lists with each cell read as its text, errors included
(`keyColumns_spec`). A column name present and not text is read in every case, and then neither
list is built.
-/

set_option autoImplicit false
set_option relaxedAutoImplicit false

namespace Introspect

namespace Row

/-- The error of reading a column as text: the row lacks the column, or holds another kind of
cell there. -/
def textError? (r : Row) (column : String) : Option RowError :=
  match r.get? column with
  | none => some ⟨column, .missing, r⟩
  | some v => if v.asText?.isSome then none else some ⟨column, .notText, r⟩

variable {r : Row} {column : String}

/-- Reading a column as text fails with `textError?`, and otherwise gives the text of the cell. -/
theorem requireText_eq (column : String) :
    r.requireText column = (r.textError? column).elim (.ok (r.getD column).display) .error := by
  unfold requireText require textError? getD
  cases r.get? column with
  | none => rfl
  | some v => cases v <;> rfl

theorem textError?_eq_none_iff : r.textError? column = none ↔ r.HasText column := by
  unfold textError? HasText
  cases r.get? column with
  | none => simp
  | some v => cases v <;> simp [Value.asText?]

/-- Where the column holds text whenever it is there, reading it as text fails as reading it
does. -/
theorem textError?_eq_missingError? (h : (r.get? column).isSome → r.HasText column) :
    r.textError? column = r.missingError? [column] := by
  cases hv : r.get? column with
  | none => simp [textError?, missingError?, missing?, hv]
  | some v =>
    have hnone : r.missingError? [column] = none :=
      missingError?_eq_none_iff.mpr fun c hc => by simp_all
    rw [hnone, textError?_eq_none_iff]
    exact h (by simp [hv])

/-- A row lacks one of two columns when it lacks the first, or has it and lacks the second. -/
theorem missingError?_pair (first second : String) :
    r.missingError? [first, second] = (r.missingError? [first]).or (r.missingError? [second]) := by
  unfold missingError? missing?
  cases h : r.get? first <;> simp [List.find?_cons, h]

end Row

namespace Listing

open Sorting

variable {rows : List Row}

/-- Every row that has the column holds text there. -/
def TextWherePresent (rows : List Row) (column : String) : Prop :=
  ∀ r ∈ rows, (r.get? column).isSome → r.HasText column

/-- The error of the first row, in listing order, that lacks the position column or holds no text
in the text column. -/
def firstUnreadable (rows : List Row) (positionColumn textColumn : String) : Option RowError :=
  rows.findSome? fun r => (r.missingError? [positionColumn]).or (r.textError? textColumn)

theorem firstUnreadable_eq_none_iff {s t : String} :
    firstUnreadable rows s t = none ↔ ∀ r ∈ rows, (r.get? s).isSome ∧ r.HasText t := by
  simp [firstUnreadable, List.findSome?_eq_none_iff, Option.or_eq_none_iff,
    Row.missingError?_eq_none_iff, Row.textError?_eq_none_iff]

/-- Where every text cell present is text, a row is unreadable exactly when it lacks a column. -/
theorem firstUnreadable_eq_firstMissing {s t : String} (h : TextWherePresent rows t) :
    firstUnreadable rows s t = firstMissing rows [s, t] :=
  findSome?_congr fun r hr => by
    rw [Row.textError?_eq_missingError? (h r hr), Row.missingError?_pair]

/-! ### Sorting, then reading -/

/-- Sorting entries by position and then mapping what they order is sorting the mapped entries:
the sort compares positions only. -/
theorem sortByPosition_map {β γ : Type} (p : Profile) (g : β → γ) (entries : List (Value × β)) :
    sortByPosition p (entries.map (Prod.map id g)) = (sortByPosition p entries).map (List.map g) := by
  have hsort := @stableSort_map (Value × β) (Value × γ) (Prod.map id g) positionBefore
    positionBefore (fun _ _ => rfl) p entries
  unfold sortByPosition
  rw [hsort]
  cases stableSort p positionBefore entries with
  | none => rfl
  | some sorted => simp [Except.map, List.map_map, Function.comp_def]

/-- What sorting by position gives is what the entries order, in some order. -/
theorem sortByPosition_perm {β : Type} {p : Profile} {entries : List (Value × β)} {out : List β}
    (h : sortByPosition p entries = .ok out) : out.Perm (entries.map Prod.snd) := by
  unfold sortByPosition at h
  cases hs : stableSort p positionBefore entries with
  | none =>
    rw [hs] at h
    cases h
  | some sorted =>
    rw [hs] at h
    obtain rfl := Except.ok.inj h
    exact (stableSort_perm p hs).map Prod.snd

/-! ### Primary keys -/

/-- A primary key fails at the first row that lacks a position or a text column name, and
otherwise sorts the texts by position. -/
theorem primaryKeyColumns_eq :
    primaryKeyColumns rows = (firstUnreadable rows keySequenceColumn columnNameColumn).elim
      (sortByPosition wideEntries
        (rows.map fun r => (r.getD keySequenceColumn, (r.getD columnNameColumn).display)))
      fun e => .error (.malformed e) := by
  unfold primaryKeyColumns firstUnreadable
  rw [mapM_eq_findSome? _ (fun r => (r.getD keySequenceColumn, (r.getD columnNameColumn).display))
    (fun r => (r.missingError? [keySequenceColumn]).or (r.textError? columnNameColumn)) rows
    fun r _ => ?_]
  · cases rows.findSome? fun r =>
      (r.missingError? [keySequenceColumn]).or (r.textError? columnNameColumn) <;> rfl
  · rw [Row.require_eq, Row.requireText_eq]
    cases r.missingError? [keySequenceColumn] <;> cases r.textError? columnNameColumn <;> rfl

theorem primaryKeyColumns_eq_map (h : TextWherePresent rows columnNameColumn) :
    primaryKeyColumns rows =
      (orderedColumnList rows keySequenceColumn columnNameColumn).map (List.map Value.display) := by
  rw [primaryKeyColumns_eq, orderedColumnList_eq_sortByPosition,
    firstUnreadable_eq_firstMissing h]
  cases firstMissing rows [keySequenceColumn, columnNameColumn] with
  | some e => rfl
  | none =>
    have hentries : (rows.map fun r => (r.getD keySequenceColumn, (r.getD columnNameColumn).display)) =
        (rows.map fun r => (r.getD keySequenceColumn, r.getD columnNameColumn)).map
          (Prod.map id Value.display) := by
      rw [List.map_map]
      rfl
    rw [Option.elim_none, Option.elim_none, hentries, sortByPosition_map]

/-! ### Grouped rows -/

/-- A list of reads that succeeds pairs each input with its output. -/
theorem forall₂_of_mapM_eq_ok {ε α β : Type} {f : α → Except ε β} :
    ∀ {l : List α} {ys : List β}, l.mapM f = .ok ys → List.Forall₂ (fun a b => f a = .ok b) l ys
  | [], ys, h => by
    rw [List.mapM_nil, Except.pure_eq_ok] at h
    subst h
    exact .nil
  | a :: l, ys, h => by
    simp only [List.mapM_cons, Except.bind_eq_ok, Except.pure_eq_ok] at h
    obtain ⟨b, hb, bs, hbs, rfl⟩ := h
    exact .cons hb (forall₂_of_mapM_eq_ok hbs)

/-- Groups whose members are some parts, in some order, hold those parts in that order. -/
theorem perm_flatMap_of_forall₂ {κ α : Type} {cs : List κ} {groups : List (κ × List α)}
    {part : κ → List α} (h : List.Forall₂ (fun c grp => grp.2.Perm (part c)) cs groups) :
    (groups.flatMap Prod.snd).Perm (cs.flatMap part) := by
  induction h with
  | nil => exact .nil
  | cons hgrp _ ih =>
    rw [List.flatMap_cons, List.flatMap_cons]
    exact hgrp.append ih

variable {g s : String} {groups : List (Value × List Row)}

/-- The groups of a listing are its group cells in order of first occurrence, each with the rows
of that cell in some order. -/
theorem groupsByPosition_forall₂ (h : groupsByPosition rows g s = .ok groups) :
    List.Forall₂ (fun c grp => grp.1 = c ∧ grp.2.Perm (rows.filter (·.getD g == c)))
      (firstSeen (rows.map (·.getD g))) groups := by
  unfold groupsByPosition at h
  rw [Except.bind_eq_ok] at h
  obtain ⟨tagged, htagged, hgroups⟩ := h
  obtain ⟨-, rfl⟩ := tagRows_eq_ok_iff.mp (liftRow_eq_ok.mp htagged)
  rw [List.map_map] at hgroups
  refine (forall₂_of_mapM_eq_ok hgroups).imp fun c grp hc => ?_
  simp only [Except.bind_eq_ok, Except.pure_eq_ok] at hc
  obtain ⟨members, hsort, rfl⟩ := hc
  refine ⟨rfl, (sortByPosition_perm hsort).trans ?_⟩
  simp [List.filter_map, List.map_map, Function.comp_def]

/-- Grouping keeps exactly the rows of the listing. -/
theorem mem_flatMap_groupsByPosition (h : groupsByPosition rows g s = .ok groups) {r : Row} :
    r ∈ groups.flatMap Prod.snd ↔ r ∈ rows := by
  have hperm := perm_flatMap_of_forall₂ ((groupsByPosition_forall₂ h).imp fun _ _ hc => hc.2)
  rw [hperm.mem_iff]
  simp only [List.mem_flatMap, List.mem_filter, mem_firstSeen, List.mem_map, beq_iff_eq]
  constructor
  · rintro ⟨c, -, hr, -⟩
    exact hr
  · intro hr
    exact ⟨r.getD g, ⟨r, hr, rfl⟩, hr, rfl⟩

/-- Grouped lists of built groups fail at the first grouped row that lacks the value column. -/
theorem groupedColumnLists_eq_of_groups {v : String} (h : groupsByPosition rows g s = .ok groups) :
    groupedColumnLists rows g s v =
      (firstMissing (groups.flatMap Prod.snd) [v]).elim
        (.ok (groups.map fun grp => grp.2.map (·.getD v))) fun e => .error (.malformed e) := by
  rw [groupedColumnLists, h]
  show liftRow (groups.mapM fun grp => grp.2.mapM (·.require v)) = _
  rw [mapM_groups_require_eq]
  cases firstMissing (groups.flatMap Prod.snd) [v] <;> rfl

/-! ### Unique keys -/

/-- Unique keys of built groups fail at the first grouped row without a text column name, and
otherwise read the texts group by group. -/
theorem uniqueKeyColumns_eq (h : groupsByPosition rows constraintNameColumn keySequenceColumn = .ok groups) :
    uniqueKeyColumns rows =
      ((groups.flatMap Prod.snd).findSome? (·.textError? columnNameColumn)).elim
        (.ok (groups.map fun grp => grp.2.map fun r => (r.getD columnNameColumn).display))
        fun e => .error (.malformed e) := by
  rw [uniqueKeyColumns, h]
  show liftRow (groups.mapM fun grp => grp.2.mapM (·.requireText columnNameColumn)) = _
  rw [mapM_groups_eq _ _ _ groups fun _ _ _ _ => Row.requireText_eq columnNameColumn]
  cases (groups.flatMap Prod.snd).findSome? (·.textError? columnNameColumn) <;> rfl

theorem uniqueKeyColumns_eq_map (h : TextWherePresent rows columnNameColumn) :
    uniqueKeyColumns rows =
      (groupedColumnLists rows constraintNameColumn keySequenceColumn columnNameColumn).map
        (List.map (List.map Value.display)) := by
  cases hg : groupsByPosition rows constraintNameColumn keySequenceColumn with
  | error e =>
    rw [uniqueKeyColumns, groupedColumnLists, hg]
    rfl
  | ok groups =>
    have hfind : (groups.flatMap Prod.snd).findSome? (·.textError? columnNameColumn) =
        firstMissing (groups.flatMap Prod.snd) [columnNameColumn] :=
      findSome?_congr fun r hr =>
        Row.textError?_eq_missingError? (h r ((mem_flatMap_groupsByPosition hg).mp hr))
    rw [uniqueKeyColumns_eq hg, groupedColumnLists_eq_of_groups hg, hfind]
    cases firstMissing (groups.flatMap Prod.snd) [columnNameColumn] with
    | some e => rfl
    | none => simp [Except.map, List.map_map, Function.comp_def]

/-! ### Column names that are not text -/

theorem primaryKeyColumns_ne_ok_of_not_text {r : Row} (hr : r ∈ rows)
    (hnot : ¬ r.HasText columnNameColumn) (cols : List String) : primaryKeyColumns rows ≠ .ok cols := by
  obtain ⟨e, he⟩ : ∃ e, firstUnreadable rows keySequenceColumn columnNameColumn = some e :=
    Option.ne_none_iff_exists'.mp fun hnone => hnot (firstUnreadable_eq_none_iff.mp hnone r hr).2
  rw [primaryKeyColumns_eq, he]
  simp

theorem uniqueKeyColumns_ne_ok_of_not_text {r : Row} (hr : r ∈ rows)
    (hnot : ¬ r.HasText columnNameColumn) (keys : List (List String)) :
    uniqueKeyColumns rows ≠ .ok keys := by
  cases hg : groupsByPosition rows constraintNameColumn keySequenceColumn with
  | error e =>
    rw [uniqueKeyColumns, hg]
    simp [bind, Except.bind]
  | ok groups =>
    have hmem : r ∈ groups.flatMap Prod.snd := (mem_flatMap_groupsByPosition hg).mpr hr
    obtain ⟨e, he⟩ : ∃ e,
        (groups.flatMap Prod.snd).findSome? (·.textError? columnNameColumn) = some e :=
      Option.ne_none_iff_exists'.mp fun hnone =>
        hnot (Row.textError?_eq_none_iff.mp (List.findSome?_eq_none_iff.mp hnone r hmem))
    rw [uniqueKeyColumns_eq hg, he]
    simp

/-- The key wrappers that read column names as text are the generic column lists with each cell
read as its text, errors included, when every column name present is text; when one is not,
neither builds a list. A primary key fails at the first row, in listing order, that lacks a
position or a text column name; unique keys, once grouped, fail at the first row, in grouped and
sorted order, whose column name is missing or not text. -/
theorem keyColumns_spec (rows : List Row) :
    (TextWherePresent rows columnNameColumn →
      primaryKeyColumns rows =
          (orderedColumnList rows keySequenceColumn columnNameColumn).map (List.map Value.display) ∧
        uniqueKeyColumns rows =
          (groupedColumnLists rows constraintNameColumn keySequenceColumn columnNameColumn).map
            (List.map (List.map Value.display))) ∧
    (¬ TextWherePresent rows columnNameColumn →
      (∀ cols, primaryKeyColumns rows ≠ .ok cols) ∧ ∀ keys, uniqueKeyColumns rows ≠ .ok keys) ∧
    (∀ e, primaryKeyColumns rows = .error (.malformed e) ↔
      firstUnreadable rows keySequenceColumn columnNameColumn = some e) ∧
    (∀ groups, groupsByPosition rows constraintNameColumn keySequenceColumn = .ok groups →
      ∀ e, uniqueKeyColumns rows = .error (.malformed e) ↔
        (groups.flatMap Prod.snd).findSome? (·.textError? columnNameColumn) = some e) := by
  refine ⟨fun h => ⟨primaryKeyColumns_eq_map h, uniqueKeyColumns_eq_map h⟩, fun h => ?_,
    fun e => ?_, fun groups hg e => ?_⟩
  · obtain ⟨r, hr, -, hnot⟩ : ∃ r ∈ rows, (r.get? columnNameColumn).isSome ∧
        ¬ r.HasText columnNameColumn := by
      simpa [TextWherePresent] using h
    exact ⟨primaryKeyColumns_ne_ok_of_not_text hr hnot, uniqueKeyColumns_ne_ok_of_not_text hr hnot⟩
  · rw [primaryKeyColumns_eq]
    cases firstUnreadable rows keySequenceColumn columnNameColumn with
    | some e' => simp [eq_comm]
    | none =>
      simp only [Option.elim_none, sortByPosition, reduceCtorEq, iff_false]
      split <;> simp
  · rw [uniqueKeyColumns_eq hg]
    cases (groups.flatMap Prod.snd).findSome? (·.textError? columnNameColumn) with
    | some e' => simp [eq_comm]
    | none => simp

/-- A column name that is a number: the ordered list reads it, the primary key does not. -/
example : (orderedColumnList [Row.ofList [("key_sequence", .int 1), ("column_name", .int 7)]]
      keySequenceColumn columnNameColumn).toOption = some [.int 7] ∧
    (primaryKeyColumns [Row.ofList [("key_sequence", .int 1), ("column_name", .int 7)]]).toOption =
      none := by
  decide

end Listing

end Introspect
