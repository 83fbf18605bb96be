import EntityTypings.Attribute.Codec
import EntityTypings.Schema.Codec

/-!
# Sample listings

Listings of any size that look like those of a server: two context schemas, plain entities, and aliases
of the aliased entity, with custom attributes spread over the aliases.
-/

namespace EntityTypings.Sample

open Json (Value)

def typed (typeName : String) : Value := .obj [("type", .str typeName)]

def referring (target : String) : Value := .obj [("$ref", .str target)]

def listOf (typeName target : String) : Value :=
  .obj [("items", referring target), ("type", .str typeName)]

def names (ns : List String) : Value := .arr (ns.map .str)

/-- The two schemas that every sample starts with. -/
def contexts : List Value :=
  [.ofPairs
    [("id", .str "Context"),
     ("properties", .ofPairs
       [("id", typed "string"), ("name", typed "string"), ("parent", referring "Context"),
        ("children", listOf "array" "Context")]),
     ("primary_key", names ["id"]),
     ("required", names ["name"])],
   .ofPairs
    [("id", .str "TypedContext"),
     ("$mixin", referring "Context"),
     ("properties", .ofPairs
       [("bid", typed "number"),
        ("custom_attributes", listOf "mapped_array" "ContextCustomAttributeValue")])]]

/-- The field at a position of a plain entity; types take turns. -/
def field (i : Nat) : String × Value :=
  ("field_" ++ toString i,
    if i % 4 = 0 then typed "string"
    else if i % 4 = 1 then typed "integer"
    else if i % 4 = 2 then typed "variable"
    else listOf "array" "Context")

def entity (i : Nat) : Value :=
  .ofPairs
    [("id", .str ("Entity" ++ toString i)),
     ("properties", .ofPairs ((List.range 16).map field ++ [("_internal", typed "object")])),
     ("required", names ["field_0"]),
     ("immutable", names ["field_1"])]

def aliasEntry (i : Nat) : Value :=
  .ofPairs
    [("id", .str ("Alias" ++ toString i)),
     ("alias_for", .obj [("id", .str "Task")]),
     ("properties", .ofPairs
       [("bid", typed "number"), ("frame_start", typed "integer"), ("frame_end", typed "integer")])]

/-- A listing with so many plain entities and aliases. -/
def listing (entities aliases : Nat) : List Value :=
  contexts ++ (List.range entities).map entity ++ (List.range aliases).map aliasEntry

/-- The schemas of a sample listing. -/
def schemas (entities aliases : Nat) : Except Json.Mismatch (List EntitySchema) :=
  (listing entities aliases).mapM EntitySchema.decode

/-- Every fourth attribute applies everywhere; the others are dealt out to the aliases. -/
def dealtAttribute (aliases i : Nat) : Attribute :=
  let key := "attribute_" ++ toString i
  if aliases = 0 ∨ i % 4 = 0 then .everywhere key "number"
  else .forEntity key ("Alias" ++ toString (i % aliases)) "text"

def attributes (count aliases : Nat) : List Attribute := (List.range count).map (dealtAttribute aliases)

end EntityTypings.Sample
