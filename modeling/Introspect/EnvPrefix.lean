import Introspect.Text.UpperCase

/-!
# Environment prefixes

Settings are read from environment variables whose names share a prefix: a base name in upper
case followed by two underscores. The base comes from the variable `SNOWFLAKE_ENV_PREFIX` and is
`PYTEST` when that variable is not set. Upper-casing is the full Unicode mapping, so a base may
grow (`ß` gives `SS`); a prefixed name is the prefix followed by the name, unchanged. A value
with a NUL character cannot be stored in the environment.
-/

set_option autoImplicit false
set_option relaxedAutoImplicit false

namespace Introspect

/-- The upper-case base of variable names and its separator. -/
structure EnvPrefix where
  text : String
deriving DecidableEq, Repr

namespace EnvPrefix

/-- The base used when none is given. -/
def defaultBase : String := "PYTEST"

/-- The prefix of a base, or of the default base. -/
def new (base : Option String) : EnvPrefix := ⟨Text.toUpper (base.getD defaultBase) ++ "__"⟩

/-- The prefix used when no base is given. -/
def default : EnvPrefix := new none

/-- The environment variable that holds the base. -/
def variableName : String := "SNOWFLAKE_ENV_PREFIX"

/-- The prefix of an environment, given as its lookup of variables. -/
def fromEnvironment (env : String → Option String) : EnvPrefix := new (env variableName)

/-- Whether a text can be the value of an environment variable: it holds no NUL character. -/
def settable (value : String) : Bool := !value.toList.contains '\x00'

/-- The prefix read back after setting the variable to `value`, or unsetting it for `none`;
`none` when the value cannot be set. -/
def afterSetting? (value : Option String) : Option EnvPrefix :=
  if value.all settable then
    some (fromEnvironment fun name => if name = variableName then value else none)
  else none

/-- The prefixed variable name. -/
def apply (p : EnvPrefix) (name : String) : String := p.text ++ name

/-- The default prefix. -/
example : default.text = "PYTEST__" := by
  decide

end EnvPrefix

end Introspect
