import Introspect.Listing.Position

/-!
# Column lists and composite keys

A listing of key columns has one row per column of a key, with its position in the key
(`key_sequence`) and its name (`column_name`). A primary key is the list of its column names in
position order; the unique keys of a table are such lists, one per constraint, in the order in
which the constraints first occur.

The generic forms read any value column: `orderedColumnList` sorts a whole listing by position,
`groupedColumnLists` first groups it. Rows are checked in listing order for the position (and
group) column before anything else; the value column of a grouped listing is read afterwards,
group by group in position order, and the first row that fails is the error. A sort that finds
the positions contradicting themselves ends the reading before any value column is read.
-/

set_option autoImplicit false
set_option relaxedAutoImplicit false

namespace Introspect.Listing

/-- The column of key positions. -/
def keySequenceColumn : String := "key_sequence"

/-- The column of key column names. -/
def columnNameColumn : String := "column_name"

/-- The column of constraint names. -/
def constraintNameColumn : String := "constraint_name"

/-- The cells of `valueColumn` in position order. -/
def orderedColumnList (rows : List Row) (positionColumn valueColumn : String) :
    Except ListingError (List Value) := do
  let entries ← liftRow (rows.mapM fun r => do
    let p ← r.require positionColumn
    let v ← r.require valueColumn
    pure (p, v))
  sortByPosition wideEntries entries

/-- The cells of `valueColumn`, grouped by `groupColumn` and in position order. -/
def groupedColumnLists (rows : List Row) (groupColumn positionColumn valueColumn : String) :
    Except ListingError (List (List Value)) := do
  let groups ← groupsByPosition rows groupColumn positionColumn
  liftRow (groups.mapM fun g => g.2.mapM (·.require valueColumn))

/-- The column names of a primary key, in position order. -/
def primaryKeyColumns (rows : List Row) : Except ListingError (List String) := do
  let entries ← liftRow (rows.mapM fun r => do
    let p ← r.require keySequenceColumn
    let c ← r.requireText columnNameColumn
    pure (p, c))
  sortByPosition wideEntries entries

/-- The column names of each unique key, keys in order of first occurrence. -/
def uniqueKeyColumns (rows : List Row) : Except ListingError (List (List String)) := do
  let groups ← groupsByPosition rows constraintNameColumn keySequenceColumn
  liftRow (groups.mapM fun g => g.2.mapM (·.requireText columnNameColumn))

end Introspect.Listing
