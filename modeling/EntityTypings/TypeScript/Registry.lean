import EntityTypings.Catalog
import EntityTypings.TypeScript.TypeExpr

/-!
# Declarations over the whole listing

The union that bounds the parameter of the typed context, and the map from entity types to interfaces.
-/

namespace EntityTypings.TypeScript

/-- The ids of the specialisations of the typed context, each once. -/
def subtypes (c : Catalog) : List String := c.aliasIds.eraseDups

/-- The union of the subtypes, if the listing has the typed context. -/
def subtypeUnion? (c : Catalog) : Option String :=
  c.typedContext?.map fun _ =>
    "export type " ++ Dialect.subtypeUnion ++ " = " ++
      (TypeExpr.union ((subtypes c).map .literal)).render ++ ";\n"

/-- The line of one interface in the entity type map. -/
def mapEntry (id : String) : String := "  " ++ propertyKey id ++ ": " ++ id ++ ";\n"

/-- The map of the declared interfaces, if there are any. -/
def entityTypeMap? (interfaces : List String) : Option String :=
  match interfaces with
  | [] => none
  | interfaces =>
    some ("export interface EntityTypeMap \x7b\n" ++
      String.join (interfaces.eraseDups.map mapEntry) ++
      "\x7d\n\nexport type EntityType = keyof EntityTypeMap;\n")

end EntityTypings.TypeScript
