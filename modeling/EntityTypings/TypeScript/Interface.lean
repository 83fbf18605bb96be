import EntityTypings.Catalog
import EntityTypings.TypeScript.TypeExpr

/-!
# Interfaces

A declared interface as data: the id of its schema, what it extends, and its members in order.
`Interface.render` is its declaration.
-/

namespace EntityTypings.TypeScript

structure Member where
  name : String
  type : TypeExpr
  required : Bool
  readOnly : Bool
  /-- The comment line above the member. -/
  doc : Option String

namespace Member

/-- A member that may be left out and set. -/
def optional (name : String) (type : TypeExpr) : Member := ⟨name, type, false, false, none⟩

/-- The line that declares a member. -/
def line (m : Member) : String :=
  "  " ++ (if m.readOnly then "readonly " else "") ++ propertyKey m.name ++
    (if m.required then "" else "?") ++ ": " ++ m.type.render ++ ";\n"

def render (m : Member) : String := m.doc.getD "" ++ m.line

end Member

def renderMembers (members : List Member) : String := String.join (members.map Member.render)

/-- The declared name of an id; the typed context takes a parameter. -/
def declarationName (id : String) : String :=
  if id = Dialect.typedContext then
    id ++ "<" ++ Dialect.typeParameter ++ " extends " ++ Dialect.subtypeUnion ++ " = " ++
      Dialect.subtypeUnion ++ ">"
  else id

/-- What an interface extends, without the members that every interface declares anew. -/
def parentType (id : String) (parent : Parent) : TypeExpr :=
  let extended := match parent with
    | .base base => TypeExpr.reference base
    | .typedContext => .generic Dialect.typedContext [.literal id]
  extended.without Dialect.metaMembers

/-- The clause that names what an interface extends, with a space before it. -/
def extendsClause (id : String) (parents : List Parent) : String :=
  match parents with
  | [] => ""
  | parents => " extends " ++ ", ".intercalate (parents.map fun p => (parentType id p).render)

structure Interface where
  id : String
  parents : List Parent
  members : List Member

namespace Interface

def render (i : Interface) : String :=
  "export interface " ++ declarationName i.id ++ extendsClause i.id i.parents ++ " \x7b\n" ++
    renderMembers i.members ++ "\x7d\n"

end Interface

/-- The declared name of an entry that has an id. -/
def interfaceName? (e : CatalogEntry) : Option String := e.id?.map declarationName

end EntityTypings.TypeScript
