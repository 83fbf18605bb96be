import EntityTypings.Attribute.Basic
import EntityTypings.TypeScript.TypeExpr

/-!
# Narrowed custom attributes

The custom attributes of an entity as a list type with one member for each key and value type that
applies to the entity. Members are listed in strictly ascending order of key and written value type.
-/

namespace EntityTypings.TypeScript

/-- The types that attribute values have. -/
inductive ValueType where
  | number
  | boolean
  | text
  /-- A list of selections. -/
  | selections
  /-- No narrower than the inherited value. -/
  | inherited
  deriving DecidableEq, Repr

def ValueType.ofKind : Attribute.Kind → ValueType
  | .number => .number
  | .boolean => .boolean
  | .enumerator => .selections
  | .dynamicEnumerator => .selections
  | .text => .text
  | .date => .text
  | .expression => .text
  | .url => .text
  | .notificationType => .text
  | .unknown => .inherited

def keyField : String := "key"

def valueField : String := "value"

/-- A value type as an expression, given the element that the inherited list holds. -/
def ValueType.expr (element : Option String) : ValueType → TypeExpr
  | .number => .number
  | .boolean => .boolean
  | .text => .string
  | .selections => .array .string
  | .inherited =>
    match element with
    | none => .unknown
    | some name => .indexed (.reference name) valueField

/-- The type of an attribute's values where nothing is inherited. -/
def valueTypeOf (kind : Attribute.Kind) : TypeExpr := (ValueType.ofKind kind).expr none

/-- The attributes of a server, and the element that the inherited list of them holds. -/
structure Narrowing where
  attributes : List Attribute
  element : Option String

namespace Narrowing

def applicable (n : Narrowing) (entity : String) : List Attribute :=
  n.attributes.filter (·.appliesTo entity)

/-- The order of members: by key, then by written value type. -/
def precedes (n : Narrowing) (a b : String × ValueType) : Bool :=
  a.1 < b.1 || (a.1 == b.1 && (a.2.expr n.element).render < (b.2.expr n.element).render)

/-- Puts a pair into an ascending list, unless the list has it. -/
def insertPair (n : Narrowing) (pair : String × ValueType) :
    List (String × ValueType) → List (String × ValueType)
  | [] => [pair]
  | p :: rest =>
    if n.precedes pair p then pair :: p :: rest
    else if pair = p then p :: rest
    else p :: insertPair n pair rest

/-- The distinct keys and value types that apply to an entity, in ascending order. -/
def pairs (n : Narrowing) (entity : String) : List (String × ValueType) :=
  (n.applicable entity).foldr (fun a => n.insertPair (a.key, .ofKind a.kind)) []

/-- A member keeps the other fields of the inherited element. -/
def member (n : Narrowing) (pair : String × ValueType) : TypeExpr :=
  let own := TypeExpr.object [(keyField, .literal pair.1), (valueField, pair.2.expr n.element)]
  match n.element with
  | none => own
  | some name => .intersection [(TypeExpr.reference name).without [keyField, valueField], own]

def fieldType (n : Narrowing) (entity : String) : TypeExpr :=
  .array (.union ((n.pairs entity).map n.member))

end Narrowing

end EntityTypings.TypeScript
