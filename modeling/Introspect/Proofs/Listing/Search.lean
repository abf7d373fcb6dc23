import Introspect.Listing.Index

/-!
# Searching a listing for a text

`findRow column expected` reads the rows in order and stops at the first row that ends the
search: one that lacks the column, whose missing column is then the error, or one whose cell
there is the text `expected`, which is then the row found (`findRow_eq_find?`). A cell of another
kind never ends it, whatever its display, and the rows after the one that ends it are not read.

So the search finds a row exactly when every row before it has the column and holds something
else there, fails exactly at a row that lacks the column when no row before it holds the text,
and finds nothing exactly when every row has the column and none holds the text
(`findRow_spec`).
-/

set_option autoImplicit false
set_option relaxedAutoImplicit false

namespace Introspect

namespace Row

variable {r : Row} {column expected : String}

/-- A search for the text `expected` in `column` stops at a row that lacks the column or holds
that text there. -/
def endsSearch (column expected : String) (r : Row) : Bool :=
  (r.get? column).all (· == .text expected)

/-- What a search returns at the row that ends it: the row, when it has the column, and the error
of the missing column otherwise. -/
def searchResult (column : String) (r : Row) : Except RowError (Option Row) :=
  (r.require column).map fun _ => some r

theorem endsSearch_eq_true_iff :
    r.endsSearch column expected = true ↔
      r.get? column = none ∨ r.get? column = some (.text expected) := by
  unfold endsSearch
  cases r.get? column <;> simp

/-- A row lets the search go on when it has the column and holds something else there. -/
theorem endsSearch_eq_false_iff :
    r.endsSearch column expected = false ↔ ∃ v, r.get? column = some v ∧ v ≠ .text expected := by
  unfold endsSearch
  cases r.get? column <;> simp

theorem searchResult_eq_ok_iff {found : Option Row} :
    r.searchResult column = .ok found ↔ (r.get? column).isSome ∧ found = some r := by
  unfold searchResult require
  cases r.get? column <;> simp [Except.map, eq_comm]

theorem searchResult_eq_error_iff {e : RowError} :
    r.searchResult column = .error e ↔ r.get? column = none ∧ e = ⟨column, .missing, r⟩ := by
  unfold searchResult require
  cases r.get? column <;> simp [Except.map, eq_comm]

end Row

namespace Listing

variable {rows : List Row} {column expected : String}

/-! ### One row of the search -/

/-- A row without the column ends the search with its error. -/
theorem findRow_cons_of_get?_eq_none {r : Row} {rs : List Row} (h : r.get? column = none) :
    findRow column expected (r :: rs) = .error ⟨column, .missing, r⟩ := by
  simp [findRow, Row.require, h, bind, Except.bind]

/-- A row holding the text is the row found. -/
theorem findRow_cons_of_get?_eq_text {r : Row} {rs : List Row}
    (h : r.get? column = some (.text expected)) :
    findRow column expected (r :: rs) = .ok (some r) := by
  simp [findRow, Row.require, h, Value.asText?, bind, Except.bind, pure, Except.pure]

/-- Any other cell, a text or not, lets the search go on to the next row. -/
theorem findRow_cons_of_ne {r : Row} {rs : List Row} {v : Value} (h : r.get? column = some v)
    (hv : v ≠ .text expected) : findRow column expected (r :: rs) = findRow column expected rs := by
  have hnot : v.asText? ≠ some expected := mt Value.asText?_eq_some_iff.mp hv
  simp [findRow, Row.require, h, hnot, bind, Except.bind]

/-! ### The whole search -/

/-- The first row that ends the search decides it: it is found when it has the column, and its
missing column is the error otherwise. -/
theorem findRow_eq_find? (rows : List Row) :
    findRow column expected rows =
      (rows.find? (·.endsSearch column expected)).elim (.ok none) (·.searchResult column) := by
  induction rows with
  | nil => rfl
  | cons r rs ih =>
    rw [List.find?_cons]
    cases h : r.get? column with
    | none =>
      have hend : r.endsSearch column expected = true := by simp [Row.endsSearch, h]
      simp only [hend, Option.elim]
      rw [findRow_cons_of_get?_eq_none h]
      exact (Row.searchResult_eq_error_iff.mpr ⟨h, rfl⟩).symm
    | some v =>
      by_cases hv : v = .text expected
      · subst hv
        have hend : r.endsSearch column expected = true := by simp [Row.endsSearch, h]
        simp only [hend, Option.elim]
        rw [findRow_cons_of_get?_eq_text h]
        exact (Row.searchResult_eq_ok_iff.mpr ⟨by simp [h], rfl⟩).symm
      · have hend : r.endsSearch column expected = false := by simp [Row.endsSearch, h, hv]
        rw [findRow_cons_of_ne h hv, hend, ih]

/-- The row that ends the search is the first row that lacks the column or holds the text. -/
theorem find?_endsSearch_eq_some_iff {r : Row} :
    rows.find? (·.endsSearch column expected) = some r ↔
      (r.get? column = none ∨ r.get? column = some (.text expected)) ∧
        ∃ before after, rows = before ++ r :: after ∧
          ∀ x ∈ before, ∃ v, x.get? column = some v ∧ v ≠ .text expected := by
  simp only [List.find?_eq_some_iff_append, Row.endsSearch_eq_true_iff, Bool.not_eq_true',
    Row.endsSearch_eq_false_iff]

/-- Every outcome but finding nothing comes from the row that ends the search. -/
theorem findRow_eq_iff_of_ne {res : Except RowError (Option Row)} (hres : res ≠ .ok none) :
    findRow column expected rows = res ↔
      ∃ r, rows.find? (·.endsSearch column expected) = some r ∧ r.searchResult column = res := by
  rw [findRow_eq_find?]
  cases rows.find? (·.endsSearch column expected) with
  | none => simpa using hres.symm
  | some r => simp

/-- The search finds a row exactly when that row holds the text and every row before it has the
column and holds something else there. -/
theorem findRow_eq_ok_some_iff {found : Row} :
    findRow column expected rows = .ok (some found) ↔
      found.get? column = some (.text expected) ∧
        ∃ before after, rows = before ++ found :: after ∧
          ∀ x ∈ before, ∃ v, x.get? column = some v ∧ v ≠ .text expected := by
  rw [findRow_eq_iff_of_ne (by simp)]
  simp only [find?_endsSearch_eq_some_iff, Row.searchResult_eq_ok_iff, Option.some.injEq]
  constructor
  · rintro ⟨r, ⟨hend, hsplit⟩, hhas, rfl⟩
    have hholds : found.get? column = some (.text expected) :=
      hend.resolve_left (Option.isSome_iff_ne_none.mp hhas)
    exact ⟨hholds, hsplit⟩
  · rintro ⟨hholds, hsplit⟩
    exact ⟨found, ⟨.inr hholds, hsplit⟩, by simp [hholds], rfl⟩

/-- The search fails exactly at the first row that lacks the column, when no row before it holds
the text; the error names the column and that row. -/
theorem findRow_eq_error_iff {e : RowError} :
    findRow column expected rows = .error e ↔
      ∃ before r after, rows = before ++ r :: after ∧
        (∀ x ∈ before, ∃ v, x.get? column = some v ∧ v ≠ .text expected) ∧
        r.get? column = none ∧ e = ⟨column, .missing, r⟩ := by
  rw [findRow_eq_iff_of_ne (by simp)]
  simp only [find?_endsSearch_eq_some_iff, Row.searchResult_eq_error_iff]
  constructor
  · rintro ⟨r, ⟨-, before, after, hrows, hbefore⟩, hmissing, he⟩
    exact ⟨before, r, after, hrows, hbefore, hmissing, he⟩
  · rintro ⟨before, r, after, hrows, hbefore, hmissing, he⟩
    exact ⟨r, ⟨.inl hmissing, before, after, hrows, hbefore⟩, hmissing, he⟩

/-- The search finds nothing exactly when every row has the column and none holds the text. -/
theorem findRow_eq_ok_none_iff :
    findRow column expected rows = .ok none ↔
      ∀ x ∈ rows, ∃ v, x.get? column = some v ∧ v ≠ .text expected := by
  rw [findRow_eq_find?]
  cases hfind : rows.find? (·.endsSearch column expected) with
  | none =>
    simp only [Option.elim, true_iff]
    intro x hx
    exact Row.endsSearch_eq_false_iff.mp (by simpa using List.find?_eq_none.mp hfind x hx)
  | some r =>
    have hr : r ∈ rows := List.mem_of_find?_eq_some hfind
    have hend : r.endsSearch column expected = true := List.find?_some hfind
    simp only [Option.elim, Row.searchResult_eq_ok_iff, reduceCtorEq, and_false, false_iff]
    intro hall
    simp [Row.endsSearch_eq_false_iff.mpr (hall r hr)] at hend

/-- Rows after the one found are never read: more rows after them change nothing. -/
theorem findRow_append_of_eq_ok_some {found : Row}
    (h : findRow column expected rows = .ok (some found)) (more : List Row) :
    findRow column expected (rows ++ more) = .ok (some found) := by
  obtain ⟨hholds, before, after, rfl, hbefore⟩ := findRow_eq_ok_some_iff.mp h
  exact findRow_eq_ok_some_iff.mpr ⟨hholds, before, after ++ more, by simp, hbefore⟩

/-- Searching rows for a text in a column: the row found is the first that holds the text, when
every row before it has the column and holds something else there; the error is the missing
column of the first row that lacks it, when no row before it holds the text; nothing is found
when every row has the column and none holds the text. Rows after the one found are not read, so
more rows after them change nothing, and a row whose cell is anything but the text, a number
that displays as the text included, is passed by. -/
theorem findRow_spec (rows : List Row) (column expected : String) :
    (∀ found, findRow column expected rows = .ok (some found) ↔
      found.get? column = some (.text expected) ∧
        ∃ before after, rows = before ++ found :: after ∧
          ∀ x ∈ before, ∃ v, x.get? column = some v ∧ v ≠ .text expected) ∧
    (∀ e, findRow column expected rows = .error e ↔
      ∃ before r after, rows = before ++ r :: after ∧
        (∀ x ∈ before, ∃ v, x.get? column = some v ∧ v ≠ .text expected) ∧
        r.get? column = none ∧ e = ⟨column, .missing, r⟩) ∧
    (findRow column expected rows = .ok none ↔
      ∀ x ∈ rows, ∃ v, x.get? column = some v ∧ v ≠ .text expected) ∧
    (∀ found more, findRow column expected rows = .ok (some found) →
      findRow column expected (rows ++ more) = .ok (some found)) ∧
    (∀ r v more, r.get? column = some v → v ≠ .text expected →
      findRow column expected (r :: more) = findRow column expected more) :=
  ⟨fun _ => findRow_eq_ok_some_iff, fun _ => findRow_eq_error_iff, findRow_eq_ok_none_iff,
    fun _ more h => findRow_append_of_eq_ok_some h more, fun _ _ _ h hv => findRow_cons_of_ne h hv⟩

/-- The integer `1` displays as `1` but is not the text `1`: the search passes it by. -/
example : (findRow "name" "1" [Row.ofList [("name", .int 1), ("value", .text "integer")],
    Row.ofList [("name", .text "1"), ("value", .text "text")]]).toOption.map
    (·.bind (·.get? "value")) = some (some (.text "text")) := by
  decide

end Listing

end Introspect
