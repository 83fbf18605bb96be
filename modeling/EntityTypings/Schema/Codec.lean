import EntityTypings.Json.Decode
import EntityTypings.Schema.Basic

/-!
# Schemas as JSON

The fields of an object are read in the order of their names, so of two bad fields the one with the
lesser name is reported. A list stands for a record with its fields in their declared order. Parts of a
schema have to be objects.
-/

namespace EntityTypings

open Json (Value Mismatch Wrapper)

/-- A reference to a schema by its id. -/
def referenceForm : Wrapper := ⟨"Reference", "$ref"⟩

namespace Items

def ofMembers (ms : List (String × Value)) : Except Mismatch Items := do
  let reference ← Json.nullable Json.decodeString (ms.lookup "$ref")
  let typeName ← Json.nullable Json.decodeString (ms.lookup "type")
  .ok { reference, typeName }

def ofItems (vs : List Value) : Except Mismatch Items := do
  let reference ← Json.nullable Json.decodeString vs[0]?
  let typeName ← Json.nullable Json.decodeString vs[1]?
  Json.atMost 2 vs
  .ok { reference, typeName }

def decode : Value → Except Mismatch Items
  | .obj ms => ofMembers ms
  | .arr vs => ofItems vs
  | v => v.wrongForm (.record "ItemsDescriptor")

def encode (i : Items) : Value :=
  .obj (Json.fieldIf "$ref" (i.reference.map .str) ++ Json.fieldIf "type" (i.typeName.map .str))

end Items

namespace Property

def decodeItems : Option Value → Except Mismatch (Option Items) :=
  Json.nullable (Json.objectPart "descriptor" Items.ofMembers)

def ofMembers (ms : List (String × Value)) : Except Mismatch Property := do
  let reference ← Json.nullable Json.decodeString (ms.lookup "$ref")
  let default := Json.present (ms.lookup "default")
  let description ← Json.nullable Json.decodeString (ms.lookup "description")
  let items ← decodeItems (ms.lookup "items")
  let typeName ← Json.nullable Json.decodeString (ms.lookup "type")
  .ok { typeName, reference, items, description, default }

def ofItems (vs : List Value) : Except Mismatch Property := do
  let typeName ← Json.nullable Json.decodeString vs[0]?
  let reference ← Json.nullable Json.decodeString vs[1]?
  let items ← decodeItems vs[2]?
  let description ← Json.nullable Json.decodeString vs[3]?
  let default := Json.present vs[4]?
  Json.atMost 5 vs
  .ok { typeName, reference, items, description, default }

def decode : Value → Except Mismatch Property
  | .obj ms => ofMembers ms
  | .arr vs => ofItems vs
  | v => v.wrongForm (.record "PropertyDescriptor")

def encode (p : Property) : Value :=
  .obj (Json.fieldIf "type" (p.typeName.map .str) ++ Json.fieldIf "$ref" (p.reference.map .str) ++
    Json.fieldIf "items" (p.items.map Items.encode) ++
    Json.fieldIf "description" (p.description.map .str) ++ Json.fieldIf "default" p.default)

end Property

namespace AliasMarker

/-- An alias marker is an id, or an object that holds one. -/
def decode : Value → Except Mismatch AliasMarker
  | .str id => .ok (.bare id)
  | .obj ms =>
    match ms.lookup "id" with
    | some (.str id) => .ok (.entity id (Json.present (ms.lookup "classifiers")))
    | _ => .error (.noForm "AliasFor")
  | _ => .error (.noForm "AliasFor")

def encode : AliasMarker → Value
  | .bare id => .str id
  | .entity id classifiers => .obj (("id", .str id) :: Json.fieldIf "classifiers" classifiers)

end AliasMarker

namespace EntitySchema

def decodeMixin : Option Value → Except Mismatch (Option String) :=
  Json.nullable (Json.objectPart "descriptor" referenceForm.ofMembers)

def decodeProperty (entry : String × Value) : Except Mismatch (String × Property) := do
  let property ← Json.objectPart ("property '" ++ entry.1 ++ "'") Property.ofMembers entry.2
  .ok (entry.1, property)

/-- Properties are read in the order of their names. -/
def decodeProperties : Option Value → Except Mismatch (NameTable Property)
  | none => .ok .empty
  | some .null => .ok .empty
  | some (.obj ms) => (ms.mapM decodeProperty).map NameTable.ofList
  | some v => v.wrongForm .object

def ofMembers (ms : List (String × Value)) : Except Mismatch EntitySchema := do
  let mixin ← decodeMixin (ms.lookup "$mixin")
  let aliasFor ← Json.nullable AliasMarker.decode (ms.lookup "alias_for")
  let computed ← Json.decodeNames (ms.lookup "computed")
  let declaredId ← Json.nullable Json.decodeString (ms.lookup "id")
  let immutable ← Json.decodeNames (ms.lookup "immutable")
  let primaryKey ← Json.decodeNames (ms.lookup "primary_key")
  let properties ← decodeProperties (ms.lookup "properties")
  let required ← Json.decodeNames (ms.lookup "required")
  .ok { declaredId, mixin, aliasFor, properties, required, primaryKey, immutable, computed }

def ofItems (vs : List Value) : Except Mismatch EntitySchema := do
  let declaredId ← Json.nullable Json.decodeString vs[0]?
  let mixin ← decodeMixin vs[1]?
  let aliasFor ← Json.nullable AliasMarker.decode vs[2]?
  let properties ← decodeProperties vs[3]?
  let required ← Json.decodeNames vs[4]?
  let primaryKey ← Json.decodeNames vs[5]?
  let immutable ← Json.decodeNames vs[6]?
  let computed ← Json.decodeNames vs[7]?
  Json.atMost 8 vs
  .ok { declaredId, mixin, aliasFor, properties, required, primaryKey, immutable, computed }

def decode : Value → Except Mismatch EntitySchema
  | .obj ms => ofMembers ms
  | .arr vs => ofItems vs
  | v => v.wrongForm (.record "SchemaDescriptor")

def encodeProperties (t : NameTable Property) : Value :=
  .obj (t.entries.map fun e => (e.1, e.2.encode))

def encode (s : EntitySchema) : Value :=
  .obj (("id", (s.declaredId.map Value.str).getD .null) ::
    Json.fieldIf "$mixin" (s.mixin.map referenceForm.encode) ++
    Json.fieldIf "alias_for" (s.aliasFor.map AliasMarker.encode) ++
    [("properties", encodeProperties s.properties),
     ("required", Json.encodeNames s.required),
     ("primary_key", Json.encodeNames s.primaryKey),
     ("immutable", Json.encodeNames s.immutable),
     ("computed", Json.encodeNames s.computed)])

end EntitySchema

end EntityTypings
