import Introspect.Signature.Parameter
import Introspect.Signature.Split
import Introspect.Text.Basic

/-!
# Signatures

A routine signature reads `NAME(P1, P2, ...) RETURN T`. Its parameter list is the text strictly
between the first `(` and the first `) RETURN ` marker. It is missing when there is no `(`, or no
marker, or when the marker comes first; these are checked in that order. The text between is cut
only when it is a range, and reported as missing otherwise; since `(` is not the marker's first
character that never happens.

The declared parameters are the top-level pieces of the list, and the first blank one makes the
signature malformed. Resolving the parameters in order against a catalog gives their base types;
the first name the catalog does not know is the error, and only a well-formed signature reaches
the catalog.
-/

set_option autoImplicit false
set_option relaxedAutoImplicit false

namespace Introspect.Signature

/-- The marker that closes a parameter list. -/
def returnMarker : List Char := ") RETURN ".toList

/-- The text of a parameter list: what stands between the first `(` and the first `) RETURN `
marker. The last branch, the marker at the position of the `(`, is never taken. -/
def parameterList (signature : String) : Except SignatureError String :=
  let cs := signature.toList
  match Text.firstIndex? ['('] cs with
  | none => .error (.malformed signature .missingOpen)
  | some opening =>
    match Text.firstIndex? returnMarker cs with
    | none => .error (.malformed signature .missingReturn)
    | some closing =>
      if closing < opening then .error (.malformed signature .returnBeforeOpen)
      else if opening < closing then .ok (String.ofList ((cs.take closing).drop (opening + 1)))
      else .error (.malformed signature .missingOpen)

/-- The declared parameters of a signature, in order. -/
def declaredParameters (signature : String) : Except SignatureError (List Parameter) := do
  let pieces := splitTopLevel (← parameterList signature)
  match pieces.findIdx? (·.isEmpty) with
  | some i => throw (.malformed signature (.emptyParameter i))
  | none => pure (pieces.map Parameter.ofSegment)

/-- The type names of the declared parameters, in order. -/
def parameterTypeNames (signature : String) : Except SignatureError (List String) :=
  (declaredParameters signature).map fun ps => ps.map (·.typeName)

/-- The base types of the declared parameters in a catalog, in order. -/
def parameterTypes (signature : String) (catalog : Catalog) :
    Except SignatureError (List BaseType) := do
  (← declaredParameters signature).mapM (·.resolve catalog)

end Introspect.Signature
