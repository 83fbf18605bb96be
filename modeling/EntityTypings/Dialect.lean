/-!
# Fixed names

The names that the dialect of schemas gives a meaning to, and those that the declarations add.
-/

namespace EntityTypings.Dialect

/-- The schema that is declared as a generic interface. -/
def typedContext : String := "TypedContext"

/-- The entity whose aliases specialise the typed context. -/
def aliasedEntity : String := "Task"

/-- The union that bounds the parameter of the typed context. -/
def subtypeUnion : String := "TypedContextSubtype"

def typeParameter : String := "K"

/-- The member that is narrowed on specialisations of the typed context. -/
def customAttributes : String := "custom_attributes"

def entityType : String := "__entity_type__"

def permissions : String := "__permissions"

/-- The members that every interface declares anew. -/
def metaMembers : List String := [entityType, permissions]

end EntityTypings.Dialect
