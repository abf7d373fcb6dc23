/-!
# Base types and catalogs

Routine parameters are declared with one of seventeen base data types. A catalog resolves a bare
type name to a base type, or to nothing; the built-in catalog knows exactly the canonical upper-case
names, and a custom catalog is any finite table from names to base types.
-/

set_option autoImplicit false
set_option relaxedAutoImplicit false

namespace Introspect

/-- The base data types of routine parameters. -/
inductive BaseType where
  | number
  | float
  | binary
  | boolean
  | varchar
  | date
  | time
  | timestampLtz
  | timestampNtz
  | timestampTz
  | variant
  | object
  | array
  | geography
  | geometry
  | vector
  | file
deriving DecidableEq, Repr

namespace BaseType

/-- The canonical name of a base type. -/
def name : BaseType → String
  | .number => "NUMBER"
  | .float => "FLOAT"
  | .binary => "BINARY"
  | .boolean => "BOOLEAN"
  | .varchar => "VARCHAR"
  | .date => "DATE"
  | .time => "TIME"
  | .timestampLtz => "TIMESTAMP_LTZ"
  | .timestampNtz => "TIMESTAMP_NTZ"
  | .timestampTz => "TIMESTAMP_TZ"
  | .variant => "VARIANT"
  | .object => "OBJECT"
  | .array => "ARRAY"
  | .geography => "GEOGRAPHY"
  | .geometry => "GEOMETRY"
  | .vector => "VECTOR"
  | .file => "FILE"

/-- Every base type, once each. -/
def all : List BaseType :=
  [.number, .float, .binary, .boolean, .varchar, .date, .time, .timestampLtz, .timestampNtz,
    .timestampTz, .variant, .object, .array, .geography, .geometry, .vector, .file]

/-- The base type with a canonical name. -/
def ofName? (s : String) : Option BaseType := all.find? (fun t => t.name == s)

theorem mem_all (t : BaseType) : t ∈ all := by
  cases t <;> decide

theorem ofName?_name (t : BaseType) : ofName? t.name = some t := by
  cases t <;> rfl

end BaseType

/-- A resolver of bare type names. -/
structure Catalog where
  lookup : String → Option BaseType

namespace Catalog

/-- The catalog of the canonical names. -/
def builtin : Catalog := ⟨BaseType.ofName?⟩

/-- The catalog of a table from names to base types. -/
def ofList (entries : List (String × BaseType)) : Catalog := ⟨fun s => entries.lookup s⟩

/-- The canonical names, in increasing code point order. -/
def builtinNames : List String :=
  ["ARRAY", "BINARY", "BOOLEAN", "DATE", "FILE", "FLOAT", "GEOGRAPHY", "GEOMETRY", "NUMBER",
    "OBJECT", "TIME", "TIMESTAMP_LTZ", "TIMESTAMP_NTZ", "TIMESTAMP_TZ", "VARCHAR", "VARIANT",
    "VECTOR"]

/-- The canonical names are those of the base types. -/
example : builtinNames.Perm (BaseType.all.map BaseType.name) := by
  decide

end Catalog

end Introspect
