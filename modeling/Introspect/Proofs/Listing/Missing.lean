import Introspect.Proofs.Listing.Groups

/-!
# The first malformed row

A listing is read row by row, and each row column by column; the first read that fails is the
error. `Row.missingError? r columns` is the error of a row that lacks one of `columns`: it names
the first of them that the row lacks. `firstMissing rows columns` is that error for the first row,
in listing order, that lacks one (`firstMissing_eq_some_iff`, `Row.missingError?_eq_some_iff`).

A list of reads fails exactly at its first failing read (`mapM_eq_findSome?`). Reading some
columns from every row of a listing therefore gives their cells when no row lacks one, and fails
with `firstMissing` otherwise (`mapM_require_eq`, `mapM_require₂_eq`). Whether some row lacks a
column does not depend on the order of the rows (`firstMissing_eq_none_iff`).
-/

set_option autoImplicit false
set_option relaxedAutoImplicit false

namespace Introspect

namespace Row

/-- The first of `columns` that the row lacks. -/
def missing? (r : Row) (columns : List String) : Option String :=
  columns.find? fun c => (r.get? c).isNone

/-- The error of a row that lacks one of `columns`, naming the first of them that it lacks. -/
def missingError? (r : Row) (columns : List String) : Option RowError :=
  (r.missing? columns).map fun c => ⟨c, .missing, r⟩

variable {r : Row} {columns : List String}

theorem missingError?_eq_none_iff :
    r.missingError? columns = none ↔ ∀ c ∈ columns, (r.get? c).isSome := by
  simp [missingError?, missing?, List.find?_eq_none, Option.isSome_iff_ne_none]

/-- A row lacks one of the columns exactly when the first of them that it lacks is the error. -/
theorem missingError?_eq_some_iff {e : RowError} :
    r.missingError? columns = some e ↔
      ∃ named c unnamed, columns = named ++ c :: unnamed ∧ (∀ d ∈ named, (r.get? d).isSome) ∧
        r.get? c = none ∧ e = ⟨c, .missing, r⟩ := by
  unfold missingError? missing?
  simp only [Option.map_eq_some_iff, List.find?_eq_some_iff_append, Option.isNone_iff_eq_none,
    Bool.not_eq_true', Option.isNone_eq_false_iff]
  constructor
  · rintro ⟨c, ⟨hc, named, unnamed, hcols, hnamed⟩, rfl⟩
    exact ⟨named, c, unnamed, hcols, hnamed, hc, rfl⟩
  · rintro ⟨named, c, unnamed, hcols, hnamed, hc, rfl⟩
    exact ⟨c, ⟨hc, named, unnamed, hcols, hnamed⟩, rfl⟩

/-- The columns are asked for one at a time, and the first that the row lacks is the error. -/
theorem missingError?_eq_findSome? (r : Row) (columns : List String) :
    r.missingError? columns = columns.findSome? fun c => r.missingError? [c] := by
  induction columns with
  | nil => rfl
  | cons c cs ih =>
    rw [List.findSome?_cons, ← ih]
    unfold missingError? missing?
    cases h : r.get? c <;> simp [h]

/-- Reading a column fails when the row lacks it. -/
theorem require_eq (column : String) :
    r.require column = (r.missingError? [column]).elim (.ok (r.getD column)) .error := by
  unfold require missingError? missing? getD
  cases h : r.get? column <;> simp [h]

/-- Reading two columns fails at the first of them that the row lacks. -/
theorem require_bind_require {β : Type} (first second : String) (F : Value → Value → β) :
    (do let x ← r.require first; let y ← r.require second; pure (F x y)) =
      (r.missingError? [first, second]).elim (.ok (F (r.getD first) (r.getD second))) .error := by
  unfold require missingError? missing? getD
  cases h₁ : r.get? first <;> cases h₂ : r.get? second <;>
    simp [h₁, h₂, bind, Except.bind, pure, Except.pure]

end Row

namespace Listing

/-- The error of the first row, in listing order, that lacks one of `columns`. -/
def firstMissing (rows : List Row) (columns : List String) : Option RowError :=
  rows.findSome? (·.missingError? columns)

/-- A read that fails with the error it finds, if any, succeeds exactly when it finds none. -/
theorem elim_eq_ok_iff {ε δ α : Type} {found : Option δ} {wrap : δ → ε} {a b : α} :
    found.elim (Except.ok a) (fun x => Except.error (wrap x)) = .ok b ↔ found = none ∧ a = b := by
  cases found <;> simp

/-- ... and fails exactly with the error it finds. -/
theorem elim_eq_error_iff {ε δ α : Type} {found : Option δ} {wrap : δ → ε} {a : α} {e : ε} :
    found.elim (Except.ok a) (fun x => Except.error (wrap x)) = .error e ↔
      found.map wrap = some e := by
  cases found <;> simp

/-- A list of reads fails at its first failing read, and otherwise gives what each read gives. -/
theorem mapM_eq_findSome? {α β ε : Type} (f : α → Except ε β) (F : α → β) (E : α → Option ε)
    (l : List α) (hf : ∀ a ∈ l, f a = (E a).elim (.ok (F a)) .error) :
    l.mapM f = (l.findSome? E).elim (.ok (l.map F)) .error := by
  induction l with
  | nil => rfl
  | cons a l ih =>
    have ih' := ih fun x hx => hf x (List.mem_cons_of_mem a hx)
    rw [List.mapM_cons, hf a List.mem_cons_self, List.findSome?_cons]
    cases E a with
    | some e => rfl
    | none =>
      cases h : l.findSome? E <;> simp_all [bind, Except.bind, pure, Except.pure]

/-- Two searches that find the same in every element find the same. -/
theorem findSome?_congr {α δ : Type} {l : List α} {E E' : α → Option δ}
    (h : ∀ a ∈ l, E a = E' a) : l.findSome? E = l.findSome? E' := by
  induction l with
  | nil => rfl
  | cons a l ih =>
    rw [List.findSome?_cons, List.findSome?_cons, h a List.mem_cons_self,
      ih fun x hx => h x (List.mem_cons_of_mem a hx)]

/-- Searching parts in turn finds what the first part with a find finds. -/
theorem findSome?_flatMap {κ α δ : Type} (keys : List κ) (part : κ → List α) (E : α → Option δ) :
    (keys.flatMap part).findSome? E = keys.findSome? fun k => (part k).findSome? E := by
  induction keys with
  | nil => rfl
  | cons k keys ih =>
    rw [List.flatMap_cons, List.findSome?_append, ih, List.findSome?_cons]
    cases (part k).findSome? E <;> rfl

/-- Reading every element of each group, group after group, fails at the first element whose read
fails. -/
theorem mapM_groups_eq {κ α β ε : Type} (f : α → Except ε β) (F : α → β) (E : α → Option ε)
    (groups : List (κ × List α))
    (hf : ∀ grp ∈ groups, ∀ a ∈ grp.2, f a = (E a).elim (.ok (F a)) .error) :
    groups.mapM (fun grp => grp.2.mapM f) =
      ((groups.flatMap Prod.snd).findSome? E).elim (.ok (groups.map fun grp => grp.2.map F))
        .error := by
  have hgroup : ∀ grp ∈ groups, grp.2.mapM f = (grp.2.findSome? E).elim (.ok (grp.2.map F)) .error :=
    fun grp hgrp => mapM_eq_findSome? f F E grp.2 (hf grp hgrp)
  rw [mapM_eq_findSome? _ _ _ groups hgroup, findSome?_flatMap]

variable {rows : List Row} {columns : List String}

theorem firstMissing_eq_none_iff :
    firstMissing rows columns = none ↔ ∀ r ∈ rows, ∀ c ∈ columns, (r.get? c).isSome := by
  simp [firstMissing, List.findSome?_eq_none_iff, Row.missingError?_eq_none_iff]

/-- The error is that of the first row lacking a column, every row before it having them all. -/
theorem firstMissing_eq_some_iff {e : RowError} :
    firstMissing rows columns = some e ↔
      ∃ before r after, rows = before ++ r :: after ∧
        (∀ x ∈ before, ∀ c ∈ columns, (x.get? c).isSome) ∧ r.missingError? columns = some e := by
  unfold firstMissing
  simp only [List.findSome?_eq_some_iff, Row.missingError?_eq_none_iff]
  constructor
  · rintro ⟨before, r, after, hrows, he, hbefore⟩
    exact ⟨before, r, after, hrows, hbefore, he⟩
  · rintro ⟨before, r, after, hrows, hbefore, he⟩
    exact ⟨before, r, after, hrows, he, hbefore⟩

/-- Rows in another order lack a column exactly when the rows do. -/
theorem firstMissing_eq_none_congr {rows' : List Row} (h : rows'.Perm rows) :
    firstMissing rows' columns = none ↔ firstMissing rows columns = none := by
  simp only [firstMissing_eq_none_iff, h.mem_iff]

/-- When no row lacks a column, the cell of every row there is among the cells of that column. -/
theorem getD_mem_filterMap_of_firstMissing (h : firstMissing rows columns = none) {column : String}
    (hc : column ∈ columns) : ∀ r ∈ rows, r.getD column ∈ rows.filterMap (·.get? column) :=
  fun r hr => getD_mem_filterMap hr (firstMissing_eq_none_iff.mp h r hr column hc)

/-- Reading one column from every row. -/
theorem mapM_require_eq {β : Type} (column : String) (F : Value → Row → β) :
    rows.mapM (fun r => do let x ← r.require column; pure (F x r)) =
      (firstMissing rows [column]).elim (.ok (rows.map fun r => F (r.getD column) r)) .error := by
  refine mapM_eq_findSome? _ (fun r => F (r.getD column) r) (·.missingError? [column]) rows
    fun r _ => ?_
  rw [Row.require_eq]
  cases r.missingError? [column] <;> rfl

/-- Reading two columns from every row. -/
theorem mapM_require₂_eq {β : Type} (first second : String) (F : Value → Value → Row → β) :
    rows.mapM (fun r => do let x ← r.require first; let y ← r.require second; pure (F x y r)) =
      (firstMissing rows [first, second]).elim
        (.ok (rows.map fun r => F (r.getD first) (r.getD second) r)) .error :=
  mapM_eq_findSome? _ (fun r => F (r.getD first) (r.getD second) r)
    (·.missingError? [first, second]) rows fun _ _ => Row.require_bind_require first second _

end Listing

end Introspect
