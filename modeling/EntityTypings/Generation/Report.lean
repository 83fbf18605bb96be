import EntityTypings.Attribute.Basic
import EntityTypings.Generation.Output
import EntityTypings.Settings.Basic
import EntityTypings.TypeScript.DocComment
import EntityTypings.TypeScript.Interface
import EntityTypings.TypeScript.Mapping
import EntityTypings.TypeScript.Narrowing

/-!
# Reports

A report is what one entry of a catalog contributes to a pass: the soft errors met on the way, and an
interface, nothing, or the failure that stops the pass. It depends on nothing the pass did before.
-/

namespace EntityTypings

open TypeScript

/-- What a pass works on. -/
structure Job where
  catalog : Catalog
  attributes : List Attribute
  settings : Settings

structure Report where
  skipped : List SoftError
  result : Except MappingFailure (Option Interface)

namespace Job

def narrowing (j : Job) : Narrowing := ⟨j.attributes, j.catalog.attributeElement?⟩

/-- The member that declares a property. -/
def propertyMember (j : Job) (s : EntitySchema) (name : String) (p : Property) (t : TypeExpr) : Member :=
  ⟨name, t, s.isRequired name, s.isReadOnly name, if j.settings.emitDocs then docComment p else none⟩

/-- The members of properties that are generated for the schema id `id`, and the properties skipped
before the first that fails. -/
def mapProperties (j : Job) (id : String) (s : EntitySchema) :
    List (String × Property) → List SoftError × Except MappingFailure (List Member)
  | [] => ([], .ok [])
  | (name, p) :: rest =>
    match mapProperty ⟨id, name⟩ p with
    | .error e => ([], .error e)
    | .ok (.skipped e) =>
      let (skipped, members) := mapProperties j id s rest
      (e :: skipped, members)
    | .ok (.typed t) =>
      let (skipped, members) := mapProperties j id s rest
      (skipped, members.map (j.propertyMember s name p t :: ·))

/-- The members of the properties that an entry declares itself. -/
def ownMembers (j : Job) (id : String) (e : CatalogEntry) :
    List SoftError × Except MappingFailure (List Member) :=
  j.mapProperties id e.schema (j.catalog.ownProperties e)

/-- The members that do not come from properties: the narrowed attributes of an alias, and the members
that every interface has. -/
def addedMembers (j : Job) (id : String) (e : CatalogEntry) : List Member :=
  (if e.isAlias then [Member.optional Dialect.customAttributes (j.narrowing.fieldType id)] else []) ++
  [Member.optional Dialect.entityType
      (if e.isTypedContext then .reference Dialect.typeParameter else .literal id),
    Member.optional Dialect.permissions .openRecord]

/-- The report of the entry at a position. -/
def report (j : Job) (index : Nat) (e : CatalogEntry) : Report :=
  match e.id? with
  | none => ⟨[.missingId index], .ok none⟩
  | some id =>
    let (skipped, members) := j.ownMembers id e
    ⟨skipped, members.map fun ms => some ⟨id, e.parents, ms ++ j.addedMembers id e⟩⟩

end Job

/-- Adds a report to an output. A report that failed leaves its soft errors. -/
def Output.record (o : Output) (r : Report) : Output :=
  match r.result with
  | .ok (some i) => (o.pushErrors r.skipped).pushDeclaration i.id i.render
  | _ => o.pushErrors r.skipped

end EntityTypings
