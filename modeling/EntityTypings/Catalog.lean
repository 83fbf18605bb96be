import EntityTypings.Dialect
import EntityTypings.Schema.Basic

/-!
# Catalogs

A catalog is a listing with its inheritance resolved: each schema together with what its interface
extends. Of several schemas with one id the first is meant by that id.
-/

namespace EntityTypings

/-- What an interface extends. -/
inductive Parent where
  | base (id : String)
  | typedContext
  deriving DecidableEq, Repr

namespace Parent

/-- The base among what an interface extends. -/
def base? (parents : List Parent) : Option String :=
  parents.findSome? fun
    | .base id => some id
    | .typedContext => none

/-- Whether an interface extends a base and specialises the typed context. -/
def isDual (parents : List Parent) : Bool := (base? parents).isSome && parents.contains .typedContext

end Parent

/-- The schema meant by an id. -/
def findSchema? (schemas : List EntitySchema) (id : String) : Option EntitySchema :=
  schemas.find? (fun s => s.id? == some id)

/-- What the interface of a schema extends: its mixin, if the listing has it, then the typed context, if
the schema is an alias of the aliased entity. -/
def parentsIn (schemas : List EntitySchema) (s : EntitySchema) : List Parent :=
  (match s.mixin with
    | some target => if (findSchema? schemas target).isSome then [.base target] else []
    | none => []) ++
  if s.aliasTarget? = some Dialect.aliasedEntity then [.typedContext] else []

/-- The mixin of a schema, if the listing lacks it. -/
def missingMixin? (schemas : List EntitySchema) (s : EntitySchema) : Option String :=
  s.mixin.filter fun target => (findSchema? schemas target).isNone

structure CatalogEntry where
  schema : EntitySchema
  parents : List Parent

structure Catalog where
  entries : List CatalogEntry

namespace CatalogEntry

def id? (e : CatalogEntry) : Option String := e.schema.id?

def isTypedContext (e : CatalogEntry) : Bool := e.id? == some Dialect.typedContext

/-- The base that the interface extends. -/
def base? (e : CatalogEntry) : Option String := Parent.base? e.parents

/-- Whether the interface specialises the typed context. -/
def isAlias (e : CatalogEntry) : Bool := e.parents.contains .typedContext

def isDual (e : CatalogEntry) : Bool := Parent.isDual e.parents

end CatalogEntry

namespace Catalog

def ofSchemas (schemas : List EntitySchema) : Catalog :=
  ⟨schemas.map fun s => ⟨s, parentsIn schemas s⟩⟩

def schemas (c : Catalog) : List EntitySchema := c.entries.map CatalogEntry.schema

def find? (c : Catalog) (id : String) : Option CatalogEntry :=
  c.entries.find? fun e => e.id? == some id

def typedContext? (c : Catalog) : Option CatalogEntry := c.find? Dialect.typedContext

/-- The schema that the items of the typed context's custom attributes refer to. -/
def attributeElement? (c : Catalog) : Option String := do
  let e ← c.typedContext?
  let property ← e.schema.properties.lookup Dialect.customAttributes
  let items ← property.items
  items.reference

/-- The entry whose properties an interface does not declare again. -/
def propertySource? (c : Catalog) (e : CatalogEntry) : Option CatalogEntry :=
  if e.isAlias then c.typedContext? else e.base?.bind c.find?

/-- The ids of the specialisations of the typed context, in listing order. -/
def aliasIds (c : Catalog) : List String :=
  (c.entries.filter CatalogEntry.isAlias).filterMap CatalogEntry.id?

/-- The properties that an interface declares itself, in name order. -/
def ownProperties (c : Catalog) (e : CatalogEntry) : List (String × Property) :=
  e.schema.properties.entries.filter fun entry =>
    !(entry.1.toList.head? == some '_') &&
    !(c.propertySource? e).any (fun source => source.schema.hasProperty entry.1) &&
    !(e.isAlias && entry.1 == Dialect.customAttributes)

theorem schemas_ofSchemas (schemas : List EntitySchema) : (ofSchemas schemas).schemas = schemas := by
  simp [ofSchemas, Catalog.schemas, Function.comp_def]

theorem find?_ofSchemas (schemas : List EntitySchema) (id : String) :
    (ofSchemas schemas).find? id =
      (findSchema? schemas id).map fun s => ⟨s, parentsIn schemas s⟩ := by
  rw [ofSchemas, Catalog.find?, List.find?_map]
  rfl

theorem ownProperties_ascending (c : Catalog) (e : CatalogEntry) : Ascending (c.ownProperties e) :=
  e.schema.properties.ascending.filter _

end Catalog

end EntityTypings
