import Introspect.Value
import Introspect.OrderedMap

/-!
# Rows

A row of a catalog listing maps column names to cells, in the order of its columns. Setting a
column that the row has changes its cell in place; a new column goes last.

Operations that read a row ask for a column, and possibly for a kind of cell in it. A row that
lacks the column, or holds the wrong kind there, is malformed, and the error names the column,
the problem and the whole row in its display form `{column: cell, ...}`.
-/

set_option autoImplicit false
set_option relaxedAutoImplicit false

namespace Introspect

/-- Cells by column name, in column order. -/
structure Row where
  cells : OrderedMap String Value

namespace Row

/-- The row without columns. -/
def empty : Row := ⟨OrderedMap.empty⟩

/-- Sets a column: in place when the row has it, last when it is new. -/
def set (r : Row) (column : String) (v : Value) : Row := ⟨r.cells.insert column v⟩

/-- The row of a list of columns and cells; a repeated column keeps its first place and its last
cell. -/
def ofList (l : List (String × Value)) : Row := ⟨OrderedMap.ofList l⟩

/-- The cell of a column. -/
def get? (r : Row) (column : String) : Option Value := r.cells.get? column

/-- The column names, in order. -/
def columns (r : Row) : List String := r.cells.keys

/-- The number of columns. -/
def size (r : Row) : Nat := r.cells.size

/-- Whether the row has no columns. -/
def isEmpty (r : Row) : Bool := r.cells.entries.isEmpty

/-- The display form `{column: cell, column: cell}`. -/
def display (r : Row) : String :=
  "\x7b" ++ ", ".intercalate (r.cells.entries.map fun e => e.1 ++ ": " ++ e.2.display) ++ "\x7d"

end Row

/-- What is wrong with a column of a row. -/
inductive Problem where
  | missing
  | notText
  | notInteger
deriving DecidableEq, Repr

/-- The words for a problem, as they stand in an error message. -/
def Problem.text : Problem → String
  | .missing => "is missing"
  | .notText => "is not text"
  | .notInteger => "is not an integer"

/-- A row that does not have the shape an operation asks for. -/
structure RowError where
  column : String
  problem : Problem
  row : Row

/-- The error message, naming the column, the problem and the row. -/
def RowError.message (e : RowError) : String :=
  "malformed row: column `" ++ e.column ++ "` " ++ e.problem.text ++ " in " ++ e.row.display

namespace Row

/-- The cell of a column that the row must have. -/
def require (r : Row) (column : String) : Except RowError Value :=
  match r.get? column with
  | some v => .ok v
  | none => .error ⟨column, .missing, r⟩

/-- The text of a column that must hold text. -/
def requireText (r : Row) (column : String) : Except RowError String := do
  let v ← r.require column
  match v.asText? with
  | some s => pure s
  | none => throw ⟨column, .notText, r⟩

/-- The integer of a column that must hold an integer. -/
def requireInt (r : Row) (column : String) : Except RowError Int64 := do
  let v ← r.require column
  match v.asInt? with
  | some i => pure i
  | none => throw ⟨column, .notInteger, r⟩

theorem require_eq_ok_iff (r : Row) (column : String) (v : Value) :
    r.require column = .ok v ↔ r.get? column = some v := by
  unfold require
  split <;> simp_all

end Row

end Introspect
