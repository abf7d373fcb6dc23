import Introspect.Row

/-!
# Listings read without sorting

Describe-style listings are read into maps keyed by a cell: rows by their key cell, values by
their key cell, and property rows by parent and property. Keys are cells compared as keys (floats
by bits), in order of first occurrence; a later row with the same key replaces the earlier one
in its place. Every row must have the key columns (and the value column), checked in listing
order, and the first row that lacks one is the error.

A projection keeps given columns of every row, in the given order; a column named twice appears
once, where first named. Every row must have every named column. A search finds the first row
whose cell in a column is the expected text; the rows before it must have the column, and the
rows after it are not read.
-/

set_option autoImplicit false
set_option relaxedAutoImplicit false

namespace Introspect.Listing

/-! ### Keyed maps -/

/-- Rows by their cell in `keyColumn`, the last row of each key kept. -/
def keyedRows (rows : List Row) (keyColumn : String) : Except RowError (OrderedMap Value Row) := do
  let pairs ← rows.mapM fun r => do
    let k ← r.require keyColumn
    pure (k, r)
  pure (OrderedMap.ofList pairs)

/-- The cells of `valueColumn` by the cells of `keyColumn`, the last of each key kept. -/
def propertyValues (rows : List Row) (keyColumn valueColumn : String) :
    Except RowError (OrderedMap Value Value) := do
  let pairs ← rows.mapM fun r => do
    let k ← r.require keyColumn
    let v ← r.require valueColumn
    pure (k, v)
  pure (OrderedMap.ofList pairs)

/-- Property rows by parent, then by property. -/
abbrev PropertyTree := OrderedMap Value (OrderedMap Value Row)

/-- Files a row under its parent and property. -/
def PropertyTree.file (t : PropertyTree) (parent property : Value) (r : Row) : PropertyTree :=
  t.upsert parent OrderedMap.empty (·.insert property r)

/-- The property rows of a listing by parent and property, the last row of each pair kept. -/
def propertyTree (rows : List Row) (parentColumn propertyColumn : String) :
    Except RowError PropertyTree := do
  let triples ← rows.mapM fun r => do
    let p ← r.require parentColumn
    let q ← r.require propertyColumn
    pure (p, q, r)
  pure (triples.foldl (fun t e => t.file e.1 e.2.1 e.2.2) OrderedMap.empty)

/-- The entry of a text key. A text key finds only a text cell. -/
def lookupText {ν : Type} (m : OrderedMap Value ν) (key : String) : Option ν :=
  m.get? (.text key)

/-! ### Projections and searches -/

/-- The row with only the named columns, in the order named. -/
def projectRow (columns : List String) (r : Row) : Except RowError Row := do
  let cells ← columns.mapM fun c => do
    let v ← r.require c
    pure (c, v)
  pure (Row.ofList cells)

/-- Every row, projected to the named columns. -/
def projectColumns (rows : List Row) (columns : List String) : Except RowError (List Row) :=
  rows.mapM (projectRow columns)

/-- The first row whose cell in `column` is the text `expected`. -/
def findRow (column expected : String) : List Row → Except RowError (Option Row)
  | [] => pure none
  | r :: rs => do
    let v ← r.require column
    if v.asText? = some expected then pure (some r) else findRow column expected rs

end Introspect.Listing
