import Introspect.Listing.Keys

/-!
# Foreign keys

A listing of foreign keys has one row per column pair: the key's name (`fk_name`), its position
(`key_sequence`), the referencing column (`fk_column_name`), and the referenced table and column
(`pk_database_name`, `pk_schema_name`, `pk_table_name`, `pk_column_name`). The rows are grouped by
key name in position order, and the keys are sorted by name, stably (`Sorting.stableSort`, wide
entries).

For each key in that order its name is read from its first row, then every referencing column,
then the referenced table from the first row, then every referenced column; the first cell that
is missing or not text is the error.
-/

set_option autoImplicit false
set_option relaxedAutoImplicit false

namespace Introspect.Listing

/-- A table named by database, schema and table name. -/
structure TableRef where
  database : String
  schema : String
  table : String
deriving DecidableEq, Repr

/-- The qualified name `database.schema.table`. -/
def TableRef.display (t : TableRef) : String := t.database ++ "." ++ t.schema ++ "." ++ t.table

/-- A foreign key: its name, its columns and the columns of the table it references, paired by
position. -/
structure ForeignKey where
  name : String
  columns : List String
  referenced : TableRef
  referencedColumns : List String
deriving DecidableEq, Repr

/-- The referenced table named by a row. -/
def TableRef.ofRow (r : Row) : Except RowError TableRef := do
  let database ← r.requireText "pk_database_name"
  let schema ← r.requireText "pk_schema_name"
  let table ← r.requireText "pk_table_name"
  pure ⟨database, schema, table⟩

/-- The foreign key of a group of rows in position order; an empty group has none. -/
def ForeignKey.ofGroup : List Row → Except RowError (Option ForeignKey)
  | [] => pure none
  | first :: rest => do
    let name ← first.requireText "fk_name"
    let columns ← (first :: rest).mapM (·.requireText "fk_column_name")
    let referenced ← TableRef.ofRow first
    let referencedColumns ← (first :: rest).mapM (·.requireText "pk_column_name")
    pure (some ⟨name, columns, referenced, referencedColumns⟩)

/-- The foreign keys of a listing, sorted by name. -/
def foreignKeys (rows : List Row) : Except ListingError (List ForeignKey) := do
  let groups ← groupsByPosition rows "fk_name" keySequenceColumn
  let sorted ← match Sorting.stableSort wideEntries positionBefore groups with
    | some sorted => pure sorted
    | none => throw .inconsistentOrder
  let keys ← liftRow (sorted.mapM fun g => ForeignKey.ofGroup g.2)
  pure keys.reduceOption

end Introspect.Listing
