import Introspect.Row
import Introspect.Sorting.Stable

/-!
# Position order and groups

Catalog listings give each row a position (a key sequence), and a composite key is read in
position order. The order is stable: rows of equal position keep their order in the listing. The
sort is `Sorting.stableSort` on the cell order; since cells compared across integers and floats
above `2 ^ 53` do not form a strict weak order, the sort may find its order contradicting itself,
and then the listing cannot be read (`ListingError.inconsistentOrder`).

Grouping by a column collects the rows with the same cell there, groups in the order in which
their cells first occur, each group in position order. Every row must have the group and
position columns before any group is formed, and the first row that lacks one is the error.

The entries sorted are pairs of a position and what it orders. A position with a row is narrow
(`Sorting.Profile` of 16 bytes); a position with a cell, a text or a group is wide (32 bytes).
-/

set_option autoImplicit false
set_option relaxedAutoImplicit false

namespace Introspect.Listing

/-- Why a listing cannot be read. -/
inductive ListingError where
  /-- A row lacks a column or holds the wrong kind of cell there. -/
  | malformed (e : RowError)
  /-- The positions do not form a strict weak order, and the sort found a contradiction. -/
  | inconsistentOrder

/-- A row error as a listing error. -/
def liftRow {α : Type} (r : Except RowError α) : Except ListingError α :=
  r.mapError ListingError.malformed

/-- The profile of a position paired with a row. -/
def narrowEntries : Sorting.Profile := ⟨16⟩

/-- The profile of a position paired with a cell, a text or a group of rows. -/
def wideEntries : Sorting.Profile := ⟨32⟩

/-- Whether the first position sorts before the second. -/
def positionBefore {β : Type} (a b : Value × β) : Bool := a.1.compare b.1 == .lt

/-- Items in the order of their position cells. -/
def sortByPosition {β : Type} (p : Sorting.Profile) (entries : List (Value × β)) :
    Except ListingError (List β) :=
  match Sorting.stableSort p positionBefore entries with
  | some sorted => .ok (sorted.map Prod.snd)
  | none => .error .inconsistentOrder

/-- The distinct elements of a list, in order of first occurrence. -/
def firstSeen {κ : Type} [DecidableEq κ] (ks : List κ) : List κ :=
  ks.foldl (fun acc k => if k ∈ acc then acc else acc ++ [k]) []

/-- The group cell, position cell and row of every row, in listing order. -/
def tagRows (rows : List Row) (groupColumn positionColumn : String) :
    Except RowError (List (Value × Value × Row)) :=
  rows.mapM fun r => do
    let g ← r.require groupColumn
    let p ← r.require positionColumn
    pure (g, p, r)

/-- The rows grouped by their cell in `groupColumn`, groups in order of first occurrence, each
group in position order. -/
def groupsByPosition (rows : List Row) (groupColumn positionColumn : String) :
    Except ListingError (List (Value × List Row)) := do
  let tagged ← liftRow (tagRows rows groupColumn positionColumn)
  (firstSeen (tagged.map (·.1))).mapM fun g => do
    let members ← sortByPosition narrowEntries ((tagged.filter (·.1 == g)).map (·.2))
    pure (g, members)

end Introspect.Listing
