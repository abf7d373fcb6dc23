import Introspect.Text.Quoted

/-!
# Editions

An account runs at one of three service levels, in increasing order: Standard, Enterprise and
Business Critical. A feature of a level is available at every higher level, so the level tests
are comparisons. Levels are named exactly `STANDARD`, `ENTERPRISE` and `BUSINESS_CRITICAL`; any
other name is an error that quotes it.
-/

set_option autoImplicit false
set_option relaxedAutoImplicit false

namespace Introspect

/-- A service level. -/
inductive Edition where
  | standard
  | enterprise
  | businessCritical
deriving DecidableEq, Repr

namespace Edition

/-- The position of a level in the order. -/
def rank : Edition → Nat
  | .standard => 0
  | .enterprise => 1
  | .businessCritical => 2

/-- Compares two levels. -/
def compare (a b : Edition) : Ordering := Ord.compare a.rank b.rank

/-- Whether the level is Enterprise or above. -/
def isEnterprise (e : Edition) : Bool := 1 ≤ e.rank

/-- Whether the level is Business Critical. -/
def isBusinessCritical (e : Edition) : Bool := 2 ≤ e.rank

/-- A name that is no service level. -/
structure UnknownName where
  name : String

/-- The error message for an unknown level name. -/
def UnknownName.message (e : UnknownName) : String :=
  "unknown service level " ++ Text.quote e.name

/-- The level of an exact name. -/
def ofName (s : String) : Except UnknownName Edition :=
  if s = "STANDARD" then .ok .standard
  else if s = "ENTERPRISE" then .ok .enterprise
  else if s = "BUSINESS_CRITICAL" then .ok .businessCritical
  else .error ⟨s⟩

theorem isBusinessCritical_imp_isEnterprise (e : Edition) (h : e.isBusinessCritical = true) :
    e.isEnterprise = true := by
  cases e <;> simp_all [isBusinessCritical, isEnterprise, rank]

end Edition

end Introspect
