import Introspect.Signature.Error
import Introspect.Catalog
import Introspect.Text.Blank

/-!
# Declared parameters

A declared parameter is one piece of a parameter list. It may start with the marker `DEFAULT `,
which says the parameter has a default value; exactly one such marker is removed. What is left is
a type name, possibly followed by a qualifier that starts at the first `(`, such as the length in
`VARCHAR(16)`. The type name before a qualifier loses its trailing blanks; without a qualifier
the rest is the type name as it stands.

`render` writes a parameter from its parts, the marker first, then the type name and the
qualifier, which begins with its own `(`.
-/

set_option autoImplicit false
set_option relaxedAutoImplicit false

namespace Introspect.Signature

/-- One parameter of a signature, as declared. -/
structure Parameter where
  segment : String
  hasDefault : Bool
  typeName : String
  qualifier : Option String
deriving DecidableEq, Repr

namespace Parameter

/-- The marker of a parameter with a default value. -/
def defaultMarker : List Char := "DEFAULT ".toList

/-- The text without one leading default marker, and whether it had one. -/
def stripDefault (cs : List Char) : Bool × List Char :=
  if defaultMarker.isPrefixOf cs then (true, cs.drop defaultMarker.length) else (false, cs)

/-- The type name and qualifier of a text without its default marker. -/
def splitQualifier (cs : List Char) : List Char × Option (List Char) :=
  match cs.dropWhile (· ≠ '(') with
  | [] => (cs, none)
  | q => (Text.trimEnd (cs.takeWhile (· ≠ '(')), some q)

/-- The parts of a declared parameter. -/
def ofSegment (segment : String) : Parameter :=
  let (hasDefault, rest) := stripDefault segment.toList
  let (name, qualifier) := splitQualifier rest
  { segment, hasDefault, typeName := String.ofList name,
    qualifier := qualifier.map String.ofList }

/-- The text of a parameter with these parts. -/
def render (hasDefault : Bool) (typeName : String) (qualifier : Option String) : String :=
  (if hasDefault then "DEFAULT " else "") ++ typeName ++ qualifier.getD ""

/-- The base type of the parameter in a catalog. -/
def resolve (p : Parameter) (catalog : Catalog) : Except SignatureError BaseType :=
  match catalog.lookup p.typeName with
  | some t => .ok t
  | none => .error (.unknownType p.segment p.typeName)

end Parameter

end Introspect.Signature
