import EntityTypings.Schema.Basic
import EntityTypings.Schema.DeclaredType

/-!
# Consistent listings

A listing is consistent if every schema has an id of its own, every reference names one of these ids, and
every property declares a known type, with items where the type holds some. `checkListing` reports the
first violation: ids come first, then schema by schema the mixin and the properties in name order.
-/

namespace EntityTypings

inductive Inconsistency where
  | missingId (index : Nat)
  | duplicateId (id : String)
  | danglingReference (schema target : String)
  | unknownType (typeName property schema : String)
  | missingItems (property schema : String)
  deriving DecidableEq, Repr

def Inconsistency.message : Inconsistency → String
  | .missingId index => "validation error: Schema at index " ++ toString index ++ " has no id"
  | .duplicateId id => "duplicate schema definition: '" ++ id ++ "'"
  | .danglingReference schema target =>
    "schema '" ++ schema ++ "' references unknown schema '" ++ target ++ "'"
  | .unknownType typeName property schema =>
    "unknown type '" ++ typeName ++ "' on property '" ++ property ++ "' of schema '" ++ schema ++ "'"
  | .missingItems property schema =>
    "validation error: Property '" ++ property ++ "' of schema '" ++ schema ++
      "' is an array without items"

/-- The ids of a listing, in its order. -/
def listedIds (schemas : List EntitySchema) : List String := schemas.filterMap EntitySchema.id?

/-- Every schema from position `index` on has an id, none of them seen before. -/
def checkIds (seen : List String) : Nat → List EntitySchema → Except Inconsistency Unit
  | _, [] => .ok ()
  | index, s :: rest =>
    match s.id? with
    | none => .error (.missingId index)
    | some id => if id ∈ seen then .error (.duplicateId id) else checkIds (id :: seen) (index + 1) rest

def checkReference (known : List String) (schema : String) : Option String → Except Inconsistency Unit
  | none => .ok ()
  | some target => if target ∈ known then .ok () else .error (.danglingReference schema target)

/-- The declared type is known, and one that holds items has them. -/
def checkType (schema property : String) (p : Property) : Except Inconsistency Unit :=
  match p.typeName with
  | none => .ok ()
  | some typeName =>
    match DeclaredType.ofName? typeName with
    | none => .error (.unknownType typeName property schema)
    | some t =>
      if t.isArrayLike ∧ p.items.isNone then .error (.missingItems property schema) else .ok ()

def checkProperty (known : List String) (schema : String) (entry : String × Property) :
    Except Inconsistency Unit := do
  checkReference known schema entry.2.reference
  checkType schema entry.1 entry.2
  checkReference known schema (entry.2.items.bind Items.reference)

def checkSchema (known : List String) (s : EntitySchema) : Except Inconsistency Unit := do
  checkReference known (s.id?.getD "") s.mixin
  s.properties.entries.forM (checkProperty known (s.id?.getD ""))

def checkListing (schemas : List EntitySchema) : Except Inconsistency Unit := do
  checkIds [] 0 schemas
  schemas.forM (checkSchema (listedIds schemas))

end EntityTypings
