import Introspect.Text.Quoted

/-!
# Signature errors

A signature is malformed when its parameter list cannot be found, or when one of its parameters is
empty; a well-formed signature can still name a type that the catalog does not know. Each error
message quotes the texts it names, with escapes, so that blank and invisible characters show.
-/

set_option autoImplicit false
set_option relaxedAutoImplicit false

namespace Introspect.Signature

/-- Why a signature is malformed. -/
inductive Malformation where
  /-- No `(` opens the parameter list. -/
  | missingOpen
  /-- No `) RETURN ` marker closes the parameter list. -/
  | missingReturn
  /-- The first `) RETURN ` marker stands before the first `(`. -/
  | returnBeforeOpen
  /-- The parameter at this position, counted from zero, is blank. -/
  | emptyParameter (index : Nat)
deriving DecidableEq, Repr

/-- The words for a malformation, as they stand in an error message. -/
def Malformation.text : Malformation → String
  | .missingOpen => "no `(` opens the parameter list"
  | .missingReturn => "no `) RETURN ` marker closes the parameter list"
  | .returnBeforeOpen => "`) RETURN ` marker precedes the parameter list"
  | .emptyParameter i => "parameter " ++ toString i ++ " is empty"

/-- A signature that cannot be decomposed or resolved. -/
inductive SignatureError where
  | malformed (signature : String) (reason : Malformation)
  | unknownType (segment : String) (typeName : String)
deriving DecidableEq, Repr

/-- The error message. -/
def SignatureError.message : SignatureError → String
  | .malformed s r => "malformed signature " ++ Text.quote s ++ ": " ++ r.text
  | .unknownType seg t => "unknown data type " ++ Text.quote t ++ " in parameter " ++ Text.quote seg

end Introspect.Signature
