import Introspect.Signature.Basic
import Mathlib.Data.List.Basic
import Mathlib.Data.List.Find

/-!
# Resolving parameter types against a catalog

The parameter types of a signature are read in two steps: the signature is decomposed into its
declared parameters, and each type name is then looked up in the catalog, in order. A catalog is
only a lookup of names, whichever table it is built from, so only that lookup matters.

A malformed signature fails before the catalog is consulted, with the structural error, whatever
the catalog. A well-formed one resolves to the types the catalog gives its parameters, or fails
at the first parameter whose type the catalog does not know (`mapM_resolve_eq`). So the result
depends only on what the catalog says of the type names the signature declares
(`parameterTypes_congr`), and a catalog that knows more resolves every signature that a smaller
one resolves, to the same types (`parameterTypes_of_extends`).
-/

set_option autoImplicit false
set_option relaxedAutoImplicit false

namespace Introspect

/-- `larger` resolves every name that `c` resolves, to the same base type. -/
def Catalog.Extends (c larger : Catalog) : Prop :=
  ∀ name t, c.lookup name = some t → larger.lookup name = some t

namespace Signature

variable {signature : String} {catalog : Catalog}

/-- Parameters resolve in order: the first type name the catalog does not know is the error, and
otherwise every parameter gives the type the catalog has for its name. -/
theorem mapM_resolve_eq (ps : List Parameter) (catalog : Catalog) :
    ps.mapM (·.resolve catalog) =
      (ps.find? fun p => (catalog.lookup p.typeName).isNone).elim
        (.ok (ps.filterMap fun p => catalog.lookup p.typeName))
        fun p => .error (.unknownType p.segment p.typeName) := by
  induction ps with
  | nil => rfl
  | cons p ps ih =>
    rw [List.mapM_cons, List.find?_cons, List.filterMap_cons, ih]
    cases h : catalog.lookup p.typeName with
    | none =>
      have hp : p.resolve catalog = .error (.unknownType p.segment p.typeName) := by
        simp [Parameter.resolve, h]
      rw [hp]
      rfl
    | some t =>
      have hp : p.resolve catalog = .ok t := by simp [Parameter.resolve, h]
      rw [hp, Option.isNone_some]
      cases ps.find? (fun p => (catalog.lookup p.typeName).isNone) <;> rfl

/-- A malformed signature keeps its structural error, whatever the catalog. -/
theorem parameterTypes_of_error {e : SignatureError} (h : declaredParameters signature = .error e) :
    parameterTypes signature catalog = .error e := by
  rw [parameterTypes, h]
  rfl

theorem parameterTypes_of_ok {ps : List Parameter} (h : declaredParameters signature = .ok ps) :
    parameterTypes signature catalog = ps.mapM (·.resolve catalog) := by
  rw [parameterTypes, h]
  rfl

/-- Catalogs that agree on the declared type names resolve the signature alike. -/
theorem parameterTypes_congr {other : Catalog}
    (h : ∀ ps, declaredParameters signature = .ok ps →
      ∀ p ∈ ps, other.lookup p.typeName = catalog.lookup p.typeName) :
    parameterTypes signature other = parameterTypes signature catalog := by
  cases hps : declaredParameters signature with
  | error e => rw [parameterTypes_of_error hps, parameterTypes_of_error hps]
  | ok ps =>
    have hagree := h ps hps
    rw [parameterTypes_of_ok hps, parameterTypes_of_ok hps, mapM_resolve_eq, mapM_resolve_eq,
      List.find?_congr fun p hp => by rw [hagree p hp],
      List.filterMap_congr fun p hp => hagree p hp]

/-- A resolved signature names only types the catalog knows. -/
theorem lookup_isSome_of_parameterTypes {ts : List BaseType}
    (hts : parameterTypes signature catalog = .ok ts) {ps : List Parameter}
    (hps : declaredParameters signature = .ok ps) : ∀ p ∈ ps, (catalog.lookup p.typeName).isSome := by
  rw [parameterTypes_of_ok hps, mapM_resolve_eq] at hts
  cases hfind : ps.find? (fun p => (catalog.lookup p.typeName).isNone) with
  | some p => simp [hfind] at hts
  | none =>
    intro p hp
    have hknown := List.find?_eq_none.mp hfind p hp
    rwa [Option.isNone_iff_eq_none, ← ne_eq, Option.ne_none_iff_isSome] at hknown

/-- A catalog that knows more resolves the signature to the same types. -/
theorem parameterTypes_of_extends {larger : Catalog} (hext : catalog.Extends larger)
    {ts : List BaseType} (hts : parameterTypes signature catalog = .ok ts) :
    parameterTypes signature larger = .ok ts := by
  rw [← hts]
  refine parameterTypes_congr fun ps hps p hp => ?_
  obtain ⟨t, ht⟩ := Option.isSome_iff_exists.mp (lookup_isSome_of_parameterTypes hts hps p hp)
  rw [ht, hext _ t ht]

/-- Resolving the parameter types of a signature keeps a structural error whatever the catalog.
A well-formed signature resolves to the types the catalog gives its declared parameters, in
order, or fails at the first parameter whose type name the catalog lacks. So catalogs that agree
on the declared type names give the same result, and a catalog that knows more resolves what a
smaller one resolves, to the same types. -/
theorem parameterTypes_spec (signature : String) (catalog : Catalog) :
    (∀ e, declaredParameters signature = .error e → parameterTypes signature catalog = .error e) ∧
    (∀ ps, declaredParameters signature = .ok ps →
      parameterTypes signature catalog =
        (ps.find? fun p => (catalog.lookup p.typeName).isNone).elim
          (.ok (ps.filterMap fun p => catalog.lookup p.typeName))
          fun p => .error (.unknownType p.segment p.typeName)) ∧
    (∀ other : Catalog, (∀ ps, declaredParameters signature = .ok ps →
        ∀ p ∈ ps, other.lookup p.typeName = catalog.lookup p.typeName) →
      parameterTypes signature other = parameterTypes signature catalog) ∧
    (∀ larger : Catalog, catalog.Extends larger → ∀ ts,
      parameterTypes signature catalog = .ok ts → parameterTypes signature larger = .ok ts) :=
  ⟨fun _ h => parameterTypes_of_error h,
    fun ps h => (parameterTypes_of_ok h).trans (mapM_resolve_eq ps catalog),
    fun _ h => parameterTypes_congr h,
    fun _ hext _ hts => parameterTypes_of_extends hext hts⟩

end Signature

end Introspect
