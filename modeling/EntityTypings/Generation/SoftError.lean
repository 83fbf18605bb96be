/-!
# Soft errors

What a pass leaves out and reports, without stopping.
-/

namespace EntityTypings

/-- A property, and the id of the schema that it is generated for. -/
structure PropertySite where
  schema : String
  property : String
  deriving DecidableEq, Repr

inductive SoftError where
  | noSchemas
  | missingId (index : Nat)
  /-- A property with neither a reference nor a type. -/
  | untypedProperty (site : PropertySite)
  /-- A property whose items have neither a reference nor a type. -/
  | untypedItems (site : PropertySite)
  /-- A message of the caller's own. -/
  | note (message : String)
  deriving DecidableEq, Repr

def SoftError.message : SoftError → String
  | .noSchemas => "No schemas found"
  | .missingId index => "Schema at index " ++ toString index ++ " has no id, skipping"
  | .untypedProperty site =>
    "Property '" ++ site.property ++ "' of schema '" ++ site.schema ++
      "' declares neither a $ref nor a type"
  | .untypedItems site =>
    "Items of property '" ++ site.property ++ "' of schema '" ++ site.schema ++
      "' declare neither a $ref nor a type"
  | .note message => message

end EntityTypings
