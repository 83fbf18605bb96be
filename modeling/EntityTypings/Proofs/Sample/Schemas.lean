import EntityTypings.Proofs.Listing.RoundTrip
import EntityTypings.Sample

/-!
# The schemas of a sample

A sample listing of any size is read, and `schemas_eq` says as what: its values are those of properties that are read
back (`ofPairs_properties`), and the other fields of a schema are constants.
-/

namespace EntityTypings

open Json

/-! ### Schemas whose fields come in any order -/

namespace EntitySchema

/-- The fields of a schema, as met, of two with one name the later. -/
structure ReadsFrom (s : EntitySchema) (fields : List (String × Value)) : Prop where
  mixin : decodeMixin (fields.reverse.lookup "$mixin") = .ok s.mixin
  aliasFor : nullable AliasMarker.decode (fields.reverse.lookup "alias_for") = .ok s.aliasFor
  computed : decodeNames (fields.reverse.lookup "computed") = .ok s.computed
  declaredId : nullable decodeString (fields.reverse.lookup "id") = .ok s.declaredId
  immutable : decodeNames (fields.reverse.lookup "immutable") = .ok s.immutable
  primaryKey : decodeNames (fields.reverse.lookup "primary_key") = .ok s.primaryKey
  properties : decodeProperties (fields.reverse.lookup "properties") = .ok s.properties
  required : decodeNames (fields.reverse.lookup "required") = .ok s.required

theorem ReadsFrom.decode {s : EntitySchema} {fields : List (String × Value)} (reads : s.ReadsFrom fields) :
    decode (.ofPairs fields) = .ok s := by
  have field (name : String) : (NameTable.ofList fields).entries.lookup name = fields.reverse.lookup name :=
    NameTable.lookup_ofList fields name
  show ofMembers (NameTable.ofList fields).entries = .ok s
  simp only [ofMembers, field, reads.mixin, reads.aliasFor, reads.computed, reads.declaredId, reads.immutable,
    reads.primaryKey, reads.properties, reads.required]
  rfl

/-- Properties without default values are read from what is written for them, in whatever order they come. -/
theorem decodeProperties_ofPairs {properties : List (String × Property)}
    (plain : ∀ e ∈ properties, e.2.default = none) :
    decodeProperties (some (.ofPairs (properties.map fun e => (e.1, e.2.encode.ordered)))) =
      .ok (.ofList properties) := by
  have ordered : Value.ofPairs (properties.map fun e => (e.1, e.2.encode.ordered)) =
      (encodeProperties (.ofList properties)).ordered := by
    rw [encodeProperties_ordered]
    exact congrArg Value.obj (NameTable.ofList_mapValues (fun p => p.encode.ordered) properties)
  have kept : ∀ e ∈ (NameTable.ofList properties).entries, ∀ v ∈ e.2.default, v.Kept 0 := by
    intro e listed v filled
    rw [plain e (NameTable.mem_ofList listed)] at filled
    cases filled
  rw [ordered, decodeProperties_encode kept]

end EntitySchema

/-! ### What a sample is read as -/

namespace Sample

def fieldProperty (i : Nat) : String × Property :=
  ("field_" ++ toString i,
    if i % 4 = 0 then .typed "string"
    else if i % 4 = 1 then .typed "integer"
    else if i % 4 = 2 then .typed "variable"
    else .listOf "array" "Context")

def contextProperties : List (String × Property) :=
  [("id", .typed "string"), ("name", .typed "string"), ("parent", .referring "Context"),
    ("children", .listOf "array" "Context")]

def typedContextProperties : List (String × Property) :=
  [("bid", .typed "number"), ("custom_attributes", .listOf "mapped_array" "ContextCustomAttributeValue")]

def entityProperties : List (String × Property) :=
  (List.range 16).map fieldProperty ++ [("_internal", .typed "object")]

def aliasProperties : List (String × Property) :=
  [("bid", .typed "number"), ("frame_start", .typed "integer"), ("frame_end", .typed "integer")]

def contextSchema : EntitySchema :=
  { EntitySchema.named "Context" with
    properties := .ofList contextProperties, primaryKey := ["id"], required := ["name"] }

def typedContextSchema : EntitySchema :=
  { EntitySchema.named "TypedContext" with mixin := some "Context", properties := .ofList typedContextProperties }

def entitySchema (i : Nat) : EntitySchema :=
  { EntitySchema.named ("Entity" ++ toString i) with
    properties := .ofList entityProperties, required := ["field_0"], immutable := ["field_1"] }

def aliasSchema (i : Nat) : EntitySchema :=
  { EntitySchema.named ("Alias" ++ toString i) with
    aliasFor := some (.entity "Task" none), properties := .ofList aliasProperties }

/-- The values of properties, in the order in which a sample lists them. -/
def written (properties : List (String × Property)) : List (String × Value) :=
  properties.map fun e => (e.1, e.2.encode.ordered)

theorem field_eq (i : Nat) : field i = ((fieldProperty i).1, (fieldProperty i).2.encode.ordered) := by
  unfold field fieldProperty
  dsimp only
  split
  · rfl
  · split
    · rfl
    · split <;> rfl

theorem plain_entityProperties : ∀ e ∈ entityProperties, e.2.default = none := by decide

theorem decode_contexts :
    List.Forall₂ (fun v s => EntitySchema.decode v = .ok s) contexts [contextSchema, typedContextSchema] := by
  refine .cons (EntitySchema.ReadsFrom.decode ?context) (.cons (EntitySchema.ReadsFrom.decode ?typed) .nil)
  case context =>
    constructor
    case properties =>
      exact EntitySchema.decodeProperties_ofPairs (by decide : ∀ e ∈ contextProperties, e.2.default = none)
    all_goals rfl
  case typed =>
    constructor
    case properties =>
      exact EntitySchema.decodeProperties_ofPairs (by decide : ∀ e ∈ typedContextProperties, e.2.default = none)
    all_goals rfl

theorem decode_entity (i : Nat) : EntitySchema.decode (entity i) = .ok (entitySchema i) := by
  have properties : (List.range 16).map field ++ [("_internal", typed "object")] = written entityProperties := by
    rw [written, entityProperties, List.map_append, List.map_map]
    exact congrArg (· ++ _) (List.map_congr_left fun i _ => field_eq i)
  rw [entity, properties]
  apply EntitySchema.ReadsFrom.decode
  constructor
  case properties => exact EntitySchema.decodeProperties_ofPairs plain_entityProperties
  all_goals rfl

theorem decode_alias (i : Nat) : EntitySchema.decode (aliasEntry i) = .ok (aliasSchema i) := by
  have properties : [("bid", typed "number"), ("frame_start", typed "integer"), ("frame_end", typed "integer")] =
      written aliasProperties := rfl
  rw [aliasEntry, properties]
  apply EntitySchema.ReadsFrom.decode
  constructor
  case properties => exact EntitySchema.decodeProperties_ofPairs (by decide)
  all_goals rfl

/-- The schemas of a sample with so many plain entities and aliases. -/
def listed (entities aliases : Nat) : List EntitySchema :=
  contextSchema :: typedContextSchema ::
    ((List.range entities).map entitySchema ++ (List.range aliases).map aliasSchema)

theorem schemas_eq (entities aliases : Nat) : schemas entities aliases = .ok (listed entities aliases) := by
  apply mapM_eq_ok
  have decoded (n : Nat) (value : Nat → Value) (schema : Nat → EntitySchema)
      (each : ∀ i, EntitySchema.decode (value i) = .ok (schema i)) :
      List.Forall₂ (fun v s => EntitySchema.decode v = .ok s) ((List.range n).map value)
        ((List.range n).map schema) := by
    rw [List.forall₂_map_left_iff, List.forall₂_map_right_iff, List.forall₂_same]
    exact fun i _ => each i
  rw [listing, List.append_assoc]
  exact List.rel_append decode_contexts
    (List.rel_append (decoded entities _ _ decode_entity) (decoded aliases _ _ decode_alias))

end Sample

end EntityTypings
