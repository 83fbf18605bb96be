import EntityTypings.Json.Value

/-!
# Entity schemas

An entity schema describes one entity type of a server: its properties, the schema it extends, and the
entity it is an alias of.
-/

namespace EntityTypings

/-- The items of a property that holds a list. -/
structure Items where
  reference : Option String
  typeName : Option String

structure Property where
  typeName : Option String
  reference : Option String
  items : Option Items
  description : Option String
  /-- The value the server fills in. -/
  default : Option Json.Value

/-- Marks a schema as an alias of another entity. -/
inductive AliasMarker where
  | bare (id : String)
  | entity (id : String) (classifiers : Option Json.Value)

def AliasMarker.id : AliasMarker → String
  | .bare id => id
  | .entity id _ => id

structure EntitySchema where
  declaredId : Option String
  mixin : Option String
  aliasFor : Option AliasMarker
  properties : NameTable Property
  required : List String
  primaryKey : List String
  immutable : List String
  computed : List String

namespace Property

def empty : Property := ⟨none, none, none, none, none⟩

def typed (typeName : String) : Property := { empty with typeName := some typeName }

def referring (target : String) : Property := { empty with reference := some target }

/-- A list whose items refer to a schema. -/
def listOf (typeName target : String) : Property :=
  { empty with typeName := some typeName, items := some ⟨some target, none⟩ }

end Property

namespace EntitySchema

def empty : EntitySchema := ⟨none, none, none, .empty, [], [], [], []⟩

def named (id : String) : EntitySchema := { empty with declaredId := some id }

/-- The id of a schema; an empty id counts as none. -/
def id? (s : EntitySchema) : Option String := s.declaredId.filter (· ≠ "")

def aliasTarget? (s : EntitySchema) : Option String := s.aliasFor.map AliasMarker.id

def hasProperty (s : EntitySchema) (name : String) : Bool := s.properties.contains name

def isRequired (s : EntitySchema) (name : String) : Bool :=
  s.required.contains name || s.primaryKey.contains name

def isReadOnly (s : EntitySchema) (name : String) : Bool :=
  s.immutable.contains name || s.computed.contains name

def addProperty (s : EntitySchema) (name : String) (p : Property) : EntitySchema :=
  { s with properties := s.properties.insert name p }

theorem id?_ne_empty {s : EntitySchema} {id : String} (h : s.id? = some id) : id ≠ "" := by
  obtain ⟨_, nonempty⟩ := Option.filter_eq_some_iff.mp h
  simpa using nonempty

theorem id?_eq_some {s : EntitySchema} {id : String} :
    s.id? = some id ↔ s.declaredId = some id ∧ id ≠ "" := by
  simp [id?, Option.filter_eq_some_iff]

end EntitySchema

end EntityTypings
