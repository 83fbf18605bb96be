import EntityTypings.Attribute.Basic
import EntityTypings.Json.Decode

/-!
# Custom attributes as JSON

The fields of an object are read in the order of their names, and a missing key is noticed last.
-/

namespace EntityTypings.Attribute

open Json (Value Mismatch Wrapper)

/-- A type given by its name. -/
def namedForm : Wrapper := ⟨"NamedRef", "name"⟩

def decodeNamed : Option Value → Except Mismatch (Option String) :=
  Json.nullable (Json.objectPart "descriptor" namedForm.ofMembers)

def ofMembers (ms : List (String × Value)) : Except Mismatch Attribute := do
  let hierarchical ← Json.absentable Json.decodeBool (ms.lookup "is_hierarchical")
  let key ← Json.absentable Json.decodeString (ms.lookup "key")
  let objectType ← decodeNamed (ms.lookup "object_type")
  let valueType ← decodeNamed (ms.lookup "type")
  match key with
  | none => .error (.missingField "key")
  | some key => .ok { key, hierarchical := hierarchical.getD false, objectType, valueType }

def ofItems (vs : List Value) : Except Mismatch Attribute := do
  let key ← Json.absentable Json.decodeString vs[0]?
  match key with
  | none => .error (.tooShort 0 "CustomAttributeConfiguration" 4)
  | some key =>
    let hierarchical ← Json.absentable Json.decodeBool vs[1]?
    let objectType ← decodeNamed vs[2]?
    let valueType ← decodeNamed vs[3]?
    Json.atMost 4 vs
    .ok { key, hierarchical := hierarchical.getD false, objectType, valueType }

def decode : Value → Except Mismatch Attribute
  | .obj ms => ofMembers ms
  | .arr vs => ofItems vs
  | v => v.wrongForm (.record "CustomAttributeConfiguration")

def encode (a : Attribute) : Value :=
  .obj ([("key", .str a.key), ("is_hierarchical", .bool a.hierarchical)] ++
    Json.fieldIf "object_type" (a.objectType.map namedForm.encode) ++
    Json.fieldIf "type" (a.valueType.map namedForm.encode))

end EntityTypings.Attribute
