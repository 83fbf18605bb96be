/-!
# Custom attributes

A custom attribute applies to every entity type, or to the one it is scoped to, and stores values of one
kind.
-/

namespace EntityTypings

structure Attribute where
  key : String
  /-- Applies to every entity type. -/
  hierarchical : Bool
  objectType : Option String
  valueType : Option String
  deriving DecidableEq, Repr

namespace Attribute

/-- The kinds of value that attributes store; `unknown` where the type is missing or not recognised. -/
inductive Kind where
  | number
  | text
  | boolean
  | date
  | enumerator
  | dynamicEnumerator
  | expression
  | url
  | notificationType
  | unknown
  deriving DecidableEq, Repr

def Kind.ofName (name : String) : Kind :=
  if name = "number" then .number
  else if name = "text" then .text
  else if name = "boolean" then .boolean
  else if name = "date" then .date
  else if name = "enumerator" then .enumerator
  else if name = "dynamic enumerator" then .dynamicEnumerator
  else if name = "expression" then .expression
  else if name = "url" then .url
  else if name = "notificationtype" then .notificationType
  else .unknown

/-- The kinds whose values are lists of selections. -/
def Kind.isMultiSelect : Kind → Bool
  | .enumerator | .dynamicEnumerator => true
  | _ => false

def everywhere (key valueType : String) : Attribute := ⟨key, true, none, some valueType⟩

def forEntity (key objectType valueType : String) : Attribute :=
  ⟨key, false, some objectType, some valueType⟩

def appliesTo (a : Attribute) (entity : String) : Bool :=
  a.hierarchical || a.objectType == some entity

def kind (a : Attribute) : Kind := (a.valueType.map Kind.ofName).getD .unknown

end Attribute

end EntityTypings
