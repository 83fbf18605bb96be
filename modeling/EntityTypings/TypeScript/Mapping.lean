import EntityTypings.Generation.SoftError
import EntityTypings.Schema.Basic
import EntityTypings.Schema.DeclaredType
import EntityTypings.TypeScript.TypeExpr

/-!
# Types of properties

The type that a property is declared with. A reference wins over a declared type; a list takes the type
of its items, which cannot be lists themselves.
-/

namespace EntityTypings.TypeScript

inductive MappingFailure where
  | unknownType (typeName : String) (site : PropertySite)
  | missingItems (site : PropertySite)
  deriving DecidableEq, Repr

def MappingFailure.message : MappingFailure → String
  | .unknownType typeName site =>
    "unknown type '" ++ typeName ++ "' on property '" ++ site.property ++ "' of schema '" ++
      site.schema ++ "'"
  | .missingItems site =>
    "property '" ++ site.property ++ "' of schema '" ++ site.schema ++ "' is an array without items"

/-- The outcome for a property that does not stop the pass. -/
inductive Mapped where
  | typed (t : TypeExpr)
  | skipped (error : SoftError)

/-- The type of a declared type without items; none for a list. -/
def scalarType? : DeclaredType → Option TypeExpr
  | .object => some (.keyword .object)
  | .string => some .string
  | .number => some .number
  | .boolean => some .boolean
  | .integer => some .number
  | .variable => some .varying
  | .array => none
  | .mappedArray => none

/-- The type of items that declare a type. -/
def mapItemType (site : PropertySite) (typeName : String) : Except MappingFailure TypeExpr :=
  match DeclaredType.ofName? typeName with
  | none => .error (.unknownType typeName site)
  | some t =>
    match scalarType? t with
    | none => .error (.missingItems site)
    | some item => .ok item

/-- The type of a list with these items. -/
def mapItems (site : PropertySite) (items : Items) : Except MappingFailure Mapped :=
  match items.reference, items.typeName with
  | some target, _ => .ok (.typed (.array (.reference target)))
  | none, none => .ok (.skipped (.untypedItems site))
  | none, some typeName => (mapItemType site typeName).map fun item => .typed (.array item)

/-- The type of a declared type name. -/
def mapTypeName (site : PropertySite) (typeName : String) (items : Option Items) :
    Except MappingFailure Mapped :=
  match DeclaredType.ofName? typeName with
  | none => .error (.unknownType typeName site)
  | some t =>
    match scalarType? t, items with
    | some scalar, _ => .ok (.typed scalar)
    | none, none => .error (.missingItems site)
    | none, some items => mapItems site items

def mapProperty (site : PropertySite) (p : Property) : Except MappingFailure Mapped :=
  match p.reference, p.typeName with
  | some target, _ => .ok (.typed (.reference target))
  | none, none => .ok (.skipped (.untypedProperty site))
  | none, some typeName => mapTypeName site typeName p.items

theorem scalarType?_eq_none {t : DeclaredType} : scalarType? t = none ↔ t.isArrayLike = true := by
  cases t <;> simp [scalarType?, DeclaredType.isArrayLike]

end EntityTypings.TypeScript
