import Introspect.Listing.Index
import Introspect.Proofs.Listing.Missing
import Introspect.Proofs.OrderedMap
import Mathlib.Data.List.Forall2

/-!
# Projections of a listing

`projectColumns rows columns` keeps the named columns of every row, in the order named, a column
named twice once, where first named. It reads the rows in order, and each row column by column, so
it fails at the first row lacking a named column, naming the first such column
(`projectColumns_eq`). Otherwise each row becomes `Row.restrict`: the named columns in order of
first naming, each with the row's cell (`columns_restrict`, `get?_restrict_of_isSome`), and a row
is that projection exactly when it has those columns and cells (`Row.eq_restrict_iff`).

Projecting again onto columns that were all kept changes nothing that projecting the original rows
would not (`projectColumns_of_projectColumns`): the projected rows have every column asked for,
and a projection of a projection is a projection (`Row.restrict_restrict`).
-/

set_option autoImplicit false
set_option relaxedAutoImplicit false

namespace Introspect

namespace Row

variable {r : Row} {columns : List String}

/-- Rows with the same columns and the same cells in each are equal. -/
theorem ext_get? {r' : Row} (hcolumns : r.columns = r'.columns)
    (hget : ∀ c, r.get? c = r'.get? c) : r = r' := by
  obtain ⟨m⟩ := r
  obtain ⟨m'⟩ := r'
  congr
  exact OrderedMap.ext hcolumns hget

/-- The row with only the named columns, each once where first named, with the cell this row has
there (null where it lacks the column). -/
def restrict (r : Row) (columns : List String) : Row :=
  ofList (columns.map fun c => (c, r.getD c))

theorem columns_restrict : (r.restrict columns).columns = Listing.firstSeen columns := by
  have hfst : (Prod.fst ∘ fun c : String => (c, r.getD c)) = id := rfl
  rw [restrict, Row.columns, ofList, OrderedMap.keys_ofList, List.map_map, hfst, List.map_id]

theorem get?_restrict_of_mem {c : String} (hc : c ∈ columns) :
    (r.restrict columns).get? c = some (r.getD c) := by
  have hlast : ((columns.map fun c => (c, r.getD c)).filter (·.1 == c)).getLast? =
      some (c, r.getD c) := by
    have hne : columns.filter (· == c) ≠ [] := List.ne_nil_of_mem (List.mem_filter.mpr ⟨hc, by simp⟩)
    have hc' : (columns.filter (· == c)).getLast hne = c := by
      simpa using (List.mem_filter.mp (List.getLast_mem hne)).2
    rw [List.filter_map, List.getLast?_map]
    show ((columns.filter (· == c)).getLast?).map _ = _
    rw [List.getLast?_eq_some_getLast hne, hc']
    rfl
  rw [restrict, get?, ofList, OrderedMap.get?_ofList, hlast]
  rfl

theorem get?_restrict_of_not_mem {c : String} (hc : c ∉ columns) :
    (r.restrict columns).get? c = none := by
  rw [← Option.not_isSome_iff_eq_none, get?, OrderedMap.get?_isSome_iff]
  rw [← Row.columns, columns_restrict, Listing.mem_firstSeen]
  exact hc

/-- Where the row has the column, the projection holds its cell. -/
theorem get?_restrict_of_isSome {c : String} (hc : c ∈ columns) (hhas : (r.get? c).isSome) :
    (r.restrict columns).get? c = r.get? c := by
  obtain ⟨v, hv⟩ := Option.isSome_iff_exists.mp hhas
  rw [get?_restrict_of_mem hc, hv]
  simp [getD, hv]

/-- A row that has every named column projects to exactly the row with the named columns, once
each where first named, holding its cells there. -/
theorem eq_restrict_iff {p : Row} (hall : ∀ c ∈ columns, (r.get? c).isSome) :
    p = r.restrict columns ↔
      p.columns = Listing.firstSeen columns ∧ ∀ c ∈ columns, p.get? c = r.get? c := by
  constructor
  · rintro rfl
    exact ⟨columns_restrict, fun c hc => get?_restrict_of_isSome hc (hall c hc)⟩
  · rintro ⟨hcolumns, hget⟩
    refine ext_get? (hcolumns.trans columns_restrict.symm) fun c => ?_
    by_cases hc : c ∈ columns
    · rw [hget c hc, get?_restrict_of_isSome hc (hall c hc)]
    · have hnone : p.get? c = none := by
        rw [← Option.not_isSome_iff_eq_none, get?, OrderedMap.get?_isSome_iff, ← Row.columns,
          hcolumns, Listing.mem_firstSeen]
        exact hc
      rw [hnone, get?_restrict_of_not_mem hc]

/-- Projecting a projection onto fewer columns is projecting onto those columns. -/
theorem restrict_restrict {wider : List String} (hsub : ∀ c ∈ columns, c ∈ wider) :
    (r.restrict wider).restrict columns = r.restrict columns := by
  have hcell : ∀ c ∈ columns, (r.restrict wider).getD c = r.getD c := fun c hc => by
    rw [getD, get?_restrict_of_mem (hsub c hc)]
    rfl
  calc (r.restrict wider).restrict columns
      = ofList (columns.map fun c => (c, (r.restrict wider).getD c)) := rfl
    _ = ofList (columns.map fun c => (c, r.getD c)) := by
      rw [List.map_congr_left fun c hc => by rw [hcell c hc]]
    _ = r.restrict columns := rfl

end Row

end Introspect

namespace Introspect.Listing

variable {rows : List Row} {columns : List String}

/-- Projecting a row fails at the first of the columns that it lacks, and otherwise keeps those
columns with their cells. -/
theorem projectRow_eq (r : Row) :
    projectRow columns r = (r.missingError? columns).elim (.ok (r.restrict columns)) .error := by
  have hcells : columns.mapM (fun c => do let v ← r.require c; pure (c, v)) =
      (r.missingError? columns).elim (.ok (columns.map fun c => (c, r.getD c))) .error := by
    rw [Row.missingError?_eq_findSome?]
    refine mapM_eq_findSome? _ _ _ columns fun c _ => ?_
    rw [Row.require_eq]
    cases r.missingError? [c] <;> rfl
  unfold projectRow
  rw [hcells]
  cases r.missingError? columns <;> rfl

/-- Projecting rows fails at the first row that lacks one of the columns, and otherwise projects
each row. -/
theorem projectColumns_eq (rows : List Row) :
    projectColumns rows columns =
      (firstMissing rows columns).elim (.ok (rows.map (·.restrict columns))) .error :=
  mapM_eq_findSome? _ _ _ rows fun r _ => projectRow_eq r

/-- Rows projected one by one are the rows whose projections they are. -/
theorem eq_map_restrict_of_forall₂ {ps : List Row}
    (hall : ∀ r ∈ rows, ∀ c ∈ columns, (r.get? c).isSome)
    (h : List.Forall₂ (fun p r => p.columns = firstSeen columns ∧
      ∀ c ∈ columns, p.get? c = r.get? c) ps rows) :
    ps = rows.map (·.restrict columns) := by
  induction h with
  | nil => rfl
  | cons hp _ ih =>
    rw [List.map_cons, ih fun r hr => hall r (List.mem_cons_of_mem _ hr),
      (Row.eq_restrict_iff (hall _ List.mem_cons_self)).mpr hp]

theorem projectColumns_eq_ok_iff {ps : List Row} :
    projectColumns rows columns = .ok ps ↔
      (∀ r ∈ rows, ∀ c ∈ columns, (r.get? c).isSome) ∧
      List.Forall₂ (fun p r => p.columns = firstSeen columns ∧ ∀ c ∈ columns, p.get? c = r.get? c)
        ps rows := by
  rw [projectColumns_eq, elim_eq_ok_iff, firstMissing_eq_none_iff]
  refine and_congr_right fun hall => ⟨?_, fun h => (eq_map_restrict_of_forall₂ hall h).symm⟩
  rintro rfl
  rw [List.forall₂_map_left_iff, List.forall₂_same]
  exact fun r hr => (Row.eq_restrict_iff (hall r hr)).mp rfl

/-- A projection onto columns that are all among those of an earlier projection is a projection of
the original rows. -/
theorem projectColumns_of_projectColumns {wider : List String} {ps : List Row}
    (h : projectColumns rows wider = .ok ps) (hsub : ∀ c ∈ columns, c ∈ wider) :
    projectColumns ps columns = projectColumns rows columns := by
  rw [projectColumns_eq, elim_eq_ok_iff, firstMissing_eq_none_iff] at h
  obtain ⟨hall, rfl⟩ := h
  have hnarrow : firstMissing rows columns = none :=
    firstMissing_eq_none_iff.mpr fun r hr c hc => hall r hr c (hsub c hc)
  have hprojected : firstMissing (rows.map (·.restrict wider)) columns = none := by
    refine firstMissing_eq_none_iff.mpr fun p hp c hc => ?_
    obtain ⟨r, hr, rfl⟩ := List.mem_map.mp hp
    rw [Row.get?_restrict_of_isSome (hsub c hc) (hall r hr c (hsub c hc))]
    exact hall r hr c (hsub c hc)
  rw [projectColumns_eq, projectColumns_eq, hnarrow, hprojected, List.map_map]
  congr 3
  funext r
  exact Row.restrict_restrict hsub

/-- Projecting rows onto columns succeeds exactly when every row has every column; then there is
one projected row per row, with the columns named, once each where first named, and the cells of
its row there. Otherwise the error is that of the first row lacking a column, naming the first
column that it lacks. Projecting a projection onto columns that were all kept is projecting the
original rows onto them. -/
theorem projectColumns_spec (rows : List Row) (columns : List String) :
    ((∃ ps, projectColumns rows columns = .ok ps) ↔
      ∀ r ∈ rows, ∀ c ∈ columns, (r.get? c).isSome) ∧
    (∀ ps, projectColumns rows columns = .ok ps ↔
      (∀ r ∈ rows, ∀ c ∈ columns, (r.get? c).isSome) ∧
      List.Forall₂ (fun p r => p.columns = firstSeen columns ∧ ∀ c ∈ columns, p.get? c = r.get? c)
        ps rows) ∧
    (∀ e, projectColumns rows columns = .error e ↔
      ∃ before r after, rows = before ++ r :: after ∧
        (∀ x ∈ before, ∀ c ∈ columns, (x.get? c).isSome) ∧
        ∃ named c unnamed, columns = named ++ c :: unnamed ∧ (∀ d ∈ named, (r.get? d).isSome) ∧
          r.get? c = none ∧ e = ⟨c, .missing, r⟩) ∧
    (∀ wider ps, projectColumns rows wider = .ok ps → (∀ c ∈ columns, c ∈ wider) →
      projectColumns ps columns = projectColumns rows columns) := by
  refine ⟨⟨?_, fun hall => ?_⟩, fun _ => projectColumns_eq_ok_iff, fun e => ?_,
    fun _ _ h hsub => projectColumns_of_projectColumns h hsub⟩
  · rintro ⟨ps, hps⟩
    exact (projectColumns_eq_ok_iff.mp hps).1
  · refine ⟨rows.map (·.restrict columns), ?_⟩
    rw [projectColumns_eq, firstMissing_eq_none_iff.mpr hall]
    rfl
  · rw [projectColumns_eq, elim_eq_error_iff, Option.map_id', firstMissing_eq_some_iff]
    simp only [Row.missingError?_eq_some_iff]

/-- A column named twice is kept once, where first named. -/
example : (projectColumns [Row.ofList [("property", .text "language"), ("value", .text "PYTHON"),
    ("default", .null)]] ["value", "property", "value"]).toOption.map (·.map Row.columns) =
    some [["value", "property"]] := by
  decide

end Introspect.Listing
