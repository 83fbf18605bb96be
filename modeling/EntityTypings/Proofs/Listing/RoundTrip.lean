import EntityTypings.Proofs.Json.Records
import EntityTypings.Proofs.Listing.Acceptance

/-!
# Listings are read back

A record that was read is read back from what is written for it, and so is a listing: `listings_read_back`. The
values that a schema only keeps have to be such as can be read back themselves.
-/

namespace EntityTypings

open Json

variable {depth : Nat} {ms : List (String × Value)}

/-! ### Properties -/

theorem Items.encode_readsAs (i : Items) : i.encode.ordered.ReadsAs Items.ofMembers i := by
  refine ⟨asRead _, rfl, ?_⟩
  simp [ofMembers, bind, Except.bind]

theorem Items.encode_fits (i : Items) : i.encode.Fits (depth + 1) := by
  refine .obj ?_
  simp only [List.forall_mem_append, forall_mem_fieldIf, forall_mem_part]
  exact ⟨fun s _ => .str s, fun s _ => .str s⟩

namespace Property

variable {p : Property}

theorem encode_readsAs (kept : ∀ v ∈ p.default, v.Kept depth) : p.encode.ordered.ReadsAs ofMembers p := by
  refine ⟨asRead _, rfl, ?_⟩
  have items : decodeItems (p.items.map (Value.ordered ∘ Items.encode)) = .ok p.items :=
    nullable_object fun i _ => i.encode_readsAs
  simp [ofMembers, items, present_map_ordered kept, bind, Except.bind]

theorem encode_fits (fits : ∀ v ∈ p.default, v.Fits (depth + 1)) : p.encode.Fits (depth + 2) := by
  refine .obj ?_
  simp only [List.forall_mem_append, forall_mem_fieldIf, forall_mem_part]
  exact ⟨⟨⟨⟨fun s _ => .str s, fun s _ => .str s⟩, fun i _ => i.encode_fits⟩, fun s _ => .str s⟩, fits⟩

theorem kept_of_read (each : ∀ m ∈ ms, m.2.Settled depth) (read : ofMembers ms = .ok p) :
    ∀ v ∈ p.default, v.Kept depth := by
  obtain ⟨_, -, read⟩ := bind_eq_ok.mp read
  obtain ⟨_, -, read⟩ := bind_eq_ok.mp read
  obtain ⟨_, -, read⟩ := bind_eq_ok.mp read
  obtain ⟨_, -, read⟩ := bind_eq_ok.mp read
  cases read
  exact kept_of_present each

end Property

/-! ### Alias markers -/

namespace AliasMarker

/-- The value that a marker only keeps. -/
def classifiers : AliasMarker → Option Value
  | .bare _ => none
  | .entity _ classifiers => classifiers

variable {m : AliasMarker}

theorem encode_ne_null (m : AliasMarker) : m.encode.ordered ≠ .null := by
  cases m with
  | bare id => simp [encode, Value.ordered]
  | entity id classifiers => simp [encode, Value.ordered, Value.ofPairs]

theorem decode_encode (kept : ∀ v ∈ m.classifiers, v.Kept depth) : decode m.encode.ordered = .ok m := by
  cases m with
  | bare id => rfl
  | entity id classifiers =>
    have named : (asRead (("id", .str id) :: fieldIf "classifiers" classifiers)).lookup "id" = some (.str id) := by
      simp [Value.ordered]
    have same : present (classifiers.map Value.ordered) = classifiers := present_map_ordered kept
    show decode (.obj (asRead (("id", .str id) :: fieldIf "classifiers" classifiers))) = _
    rw [decode, named]
    simp [same]

theorem encode_fits (fits : ∀ v ∈ m.classifiers, v.Fits depth) : m.encode.Fits (depth + 1) := by
  cases m with
  | bare id => exact .str id
  | entity id classifiers =>
    refine .obj (List.forall_mem_cons.mpr ⟨.str id, ?_⟩)
    exact forall_mem_fieldIf.mpr fits

theorem kept_of_read {v : Value} (settled : v.Settled (depth + 1)) (read : decode v = .ok m) :
    ∀ v ∈ m.classifiers, v.Kept depth := by
  unfold decode at read
  split at read
  · cases read
    intro v kept
    cases kept
  · split at read
    · cases settled with | obj each =>
      cases read
      exact kept_of_present each
    · cases read
  · cases read

end AliasMarker

/-! ### Schemas -/

namespace EntitySchema

/-- The values that a schema only keeps. -/
def keptValues (s : EntitySchema) : List Value :=
  (s.aliasFor.bind AliasMarker.classifiers).toList ++ s.properties.entries.flatMap fun e => e.2.default.toList

/-- A schema whose kept values are such as were read. Classifiers lie one level less deep than default values. -/
structure Kept (depth : Nat) (s : EntitySchema) : Prop where
  classifiers : ∀ m ∈ s.aliasFor, ∀ v ∈ m.classifiers, v.Kept (depth + 1)
  defaults : ∀ e ∈ s.properties.entries, ∀ v ∈ e.2.default, v.Kept depth

variable {s : EntitySchema}

theorem encodeProperties_ordered (t : NameTable Property) :
    (encodeProperties t).ordered = .obj (t.entries.map fun e => (e.1, e.2.encode.ordered)) := by
  have ascending : Ascending (t.entries.map fun e => (e.1, e.2.encode.ordered)) := List.pairwise_map.mpr t.ascending
  rw [encodeProperties, Value.ordered, orderedMembers_eq_map, List.map_map]
  exact congrArg Value.obj (NameTable.entries_ofList ascending)

theorem decodeProperties_encode {t : NameTable Property} (kept : ∀ e ∈ t.entries, ∀ v ∈ e.2.default, v.Kept depth) :
    decodeProperties (some (encodeProperties t).ordered) = .ok t := by
  have read : (t.entries.map fun e => (e.1, e.2.encode.ordered)).mapM decodeProperty = .ok t.entries := by
    refine mapM_map_ok fun e listed => ?_
    obtain ⟨ms, object, decoded⟩ := Property.encode_readsAs (kept e listed)
    rw [decodeProperty, object, objectPart, decoded]
    rfl
  rw [encodeProperties_ordered, decodeProperties, read]
  exact congrArg Except.ok t.ofList_entries

theorem encode_readsAs (kept : s.Kept depth) : s.encode.ordered.ReadsAs ofMembers s := by
  refine ⟨asRead _, rfl, ?_⟩
  have mixin : decodeMixin (s.mixin.map (Value.ordered ∘ referenceForm.encode)) = .ok s.mixin :=
    nullable_object fun target _ => referenceForm.encode_readsAs target
  have aliasFor : nullable AliasMarker.decode (s.aliasFor.map (Value.ordered ∘ AliasMarker.encode)) =
      .ok s.aliasFor :=
    nullable_map fun m present => ⟨m.encode_ne_null, m.decode_encode (kept.classifiers m present)⟩
  have declaredId : nullable decodeString (some ((s.declaredId.map Value.str).getD .null).ordered) =
      .ok s.declaredId := by
    cases s.declaredId <;> rfl
  have properties := decodeProperties_encode kept.defaults
  simp [ofMembers, mixin, aliasFor, declaredId, properties, decodeNames_encodeNames, bind, Except.bind]

theorem mem_keptValues {v : Value} : v ∈ s.keptValues ↔
    (∃ m ∈ s.aliasFor, v ∈ m.classifiers) ∨ ∃ e ∈ s.properties.entries, v ∈ e.2.default := by
  simp [keptValues, Option.bind_eq_some_iff]

theorem encode_fits (kept : s.Kept (depth + 1)) (integers : ∀ v ∈ s.keptValues, ∀ n ∈ v.numbers, n.IsInteger) :
    s.encode.Fits (depth + 4) := by
  have id : ((s.declaredId.map Value.str).getD .null).Fits (depth + 3) := by
    cases s.declaredId with
    | none => exact .null
    | some id => exact .str id
  have mixin (target : String) : (referenceForm.encode target).Fits (depth + 3) :=
    .obj (List.forall_mem_singleton.mpr (.str target))
  have names (names : List String) : (encodeNames names).Fits (depth + 3) :=
    .arr (List.forall_mem_map.mpr fun name _ => .str name)
  have aliasFor : ∀ m ∈ s.aliasFor, m.encode.Fits (depth + 3) := by
    refine fun m marked => AliasMarker.encode_fits fun v listed => ?_
    have settled := (kept.classifiers m marked v listed).settled
    exact settled.fits (integers v (mem_keptValues.mpr (.inl ⟨m, marked, listed⟩)))
  have properties : (encodeProperties s.properties).Fits (depth + 3) := by
    refine .obj (List.forall_mem_map.mpr fun e listed => Property.encode_fits fun v filled => ?_)
    have settled := (kept.defaults e listed v filled).settled
    exact settled.fits (integers v (mem_keptValues.mpr (.inr ⟨e, listed, filled⟩)))
  refine .obj ?_
  simp only [List.forall_mem_append, List.forall_mem_cons, forall_mem_fieldIf, forall_mem_part]
  exact ⟨⟨⟨id, fun target _ => mixin target⟩, aliasFor⟩, properties, names s.required, names s.primaryKey,
    names s.immutable, names s.computed, List.forall_mem_nil _⟩

theorem default_of_read {m : String × Value} {e : String × Property} (settled : m.2.Settled (depth + 1))
    (read : decodeProperty m = .ok e) : ∀ v ∈ e.2.default, v.Kept depth := by
  obtain ⟨p, readProperty, same⟩ := bind_eq_ok.mp read
  cases same
  obtain ⟨members, object, readMembers⟩ := readsAs_of_objectPart readProperty
  rw [object] at settled
  cases settled with | obj each =>
  exact Property.kept_of_read each readMembers

theorem defaults_of_read {part : Option Value} {t : NameTable Property}
    (settled : ∀ v ∈ part, v.Settled (depth + 2)) (read : decodeProperties part = .ok t) :
    ∀ e ∈ t.entries, ∀ v ∈ e.2.default, v.Kept depth := by
  unfold decodeProperties at read
  split at read
  · cases read
    exact List.forall_mem_nil _
  · cases read
    exact List.forall_mem_nil _
  next ms =>
    obtain ⟨entries, decoded, same⟩ := map_eq_ok.mp read
    intro e listed
    rw [← same] at listed
    obtain ⟨m, member, decodedEntry⟩ := mem_of_mapM decoded e (NameTable.mem_ofList listed)
    cases settled _ rfl with | obj each =>
    exact default_of_read (each m member) decodedEntry
  · cases read

theorem kept_of_read (each : ∀ m ∈ ms, m.2.Settled (depth + 2)) (read : ofMembers ms = .ok s) : s.Kept depth := by
  -- of the eight parts only the marker and the properties hold values that are kept
  obtain ⟨_, -, read⟩ := bind_eq_ok.mp read
  obtain ⟨_, aliasFor, read⟩ := bind_eq_ok.mp read
  obtain ⟨_, -, read⟩ := bind_eq_ok.mp read
  obtain ⟨_, -, read⟩ := bind_eq_ok.mp read
  obtain ⟨_, -, read⟩ := bind_eq_ok.mp read
  obtain ⟨_, -, read⟩ := bind_eq_ok.mp read
  obtain ⟨_, properties, read⟩ := bind_eq_ok.mp read
  obtain ⟨_, -, read⟩ := bind_eq_ok.mp read
  cases read
  constructor
  case classifiers =>
    rintro m rfl
    obtain ⟨v, found, decoded⟩ := of_nullable_eq_some aliasFor
    exact AliasMarker.kept_of_read (settled_of_lookup each found) decoded
  case defaults => exact defaults_of_read (fun v found => settled_of_lookup each found) properties

end EntitySchema

/-! ### Attributes -/

namespace Attribute

theorem encode_readsAs (a : Attribute) : a.encode.ordered.ReadsAs ofMembers a := by
  refine ⟨asRead _, rfl, ?_⟩
  have named (part : Option String) : decodeNamed (part.map (Value.ordered ∘ namedForm.encode)) = .ok part :=
    nullable_object fun name _ => namedForm.encode_readsAs name
  simp [ofMembers, named, absentable, decodeString, decodeBool, Value.ordered, bind, Except.bind, Except.map]

theorem encode_fits (a : Attribute) : a.encode.Fits (depth + 2) := by
  have named (name : String) : (namedForm.encode name).Fits (depth + 1) :=
    .obj (List.forall_mem_singleton.mpr (.str name))
  refine .obj ?_
  simp only [List.forall_mem_append, List.forall_mem_cons, forall_mem_fieldIf, forall_mem_part]
  exact ⟨⟨⟨.str a.key, .bool a.hierarchical, List.forall_mem_nil _⟩, fun name _ => named name⟩,
    fun name _ => named name⟩

end Attribute

/-! ### Listings -/

namespace Listing

variable {α : Type} {entries : String} {decodeEntry : List (String × Value) → Except Mismatch α} {encode : α → Value}
  {found : List α}

/-- The compact list of what is written for the entries. -/
def write (encode : α → Value) (found : List α) : String := (Value.arr (found.map encode)).write

theorem read_write (back : ∀ a ∈ found, (encode a).ordered.ReadsAs decodeEntry a)
    (fits : ∀ a ∈ found, (encode a).Fits 126) : read entries decodeEntry (write encode found) = .ok found := by
  have shallow : (Value.arr (found.map encode)).Fits maxDepth := .arr (List.forall_mem_map.mpr fits)
  have ordered : (Value.arr (found.map encode)).ordered = .arr (found.map fun a => (encode a).ordered) := by
    rw [Value.ordered, orderedItems_eq_map, List.map_map]
    rfl
  rw [read, write, Value.read_write shallow, ordered]
  refine (decodeEntries_eq_ok 0).mpr ?_
  rw [List.forall₂_map_left_iff, List.forall₂_same]
  exact back

theorem mem_of_decodeEntries {vs : List Value}
    (read : List.Forall₂ (fun v a => ∃ ms, v = .obj ms ∧ decodeEntry ms = .ok a) vs found) :
    ∀ a ∈ found, ∃ ms, .obj ms ∈ vs ∧ decodeEntry ms = .ok a := by
  induction read with
  | nil => exact List.forall_mem_nil _
  | cons first _ ih =>
    obtain ⟨ms, rfl, decoded⟩ := first
    refine List.forall_mem_cons.mpr ⟨⟨ms, List.mem_cons_self, decoded⟩, fun a listed => ?_⟩
    obtain ⟨ms, member, decoded⟩ := ih a listed
    exact ⟨ms, List.mem_cons_of_mem _ member, decoded⟩

/-- Each entry is read from an object inside the list that the text holds. -/
theorem settled_members_of_read {text : String} (done : read entries decodeEntry text = .ok found) :
    ∀ a ∈ found, ∃ ms, decodeEntry ms = .ok a ∧ ∀ m ∈ ms, m.2.Settled 125 := by
  intro a listed
  obtain ⟨document, readText, decoded⟩ := bind_eq_ok.mp done
  have settled := Value.settled_of_read (mapError_eq_ok.mp readText)
  cases document with
  | arr vs =>
    obtain ⟨ms, member, decodedEntry⟩ := mem_of_decodeEntries ((decodeEntries_eq_ok 0).mp decoded) a listed
    cases settled with | arr each =>
    cases each _ member with | obj eachMember =>
    exact ⟨ms, decodedEntry, eachMember⟩
  | _ => cases decoded

end Listing

/-- Schemas that were read from a text are read back from what is written for them, as long as the numbers they keep
are integers, and so the same is written for them again. Attributes are always read back. -/
theorem listings_read_back (text : String) :
    (∀ schemas, readSchemas text = .ok schemas → (∀ s ∈ schemas, ∀ v ∈ s.keptValues, ∀ n ∈ v.numbers, n.IsInteger) →
      readSchemas (Listing.write EntitySchema.encode schemas) = .ok schemas ∧
      (readSchemas (Listing.write EntitySchema.encode schemas)).map (Listing.write EntitySchema.encode) =
        .ok (Listing.write EntitySchema.encode schemas)) ∧
    ∀ attributes,
      readAttributes (Listing.write Attribute.encode attributes) = .ok attributes ∧
      (readAttributes (Listing.write Attribute.encode attributes)).map (Listing.write Attribute.encode) =
        .ok (Listing.write Attribute.encode attributes) := by
  constructor
  · intro schemas read integers
    -- a default value lies inside the listing, its schema, the properties and the property
    have kept (s : EntitySchema) (listed : s ∈ schemas) : s.Kept 123 := by
      obtain ⟨ms, decoded, each⟩ := Listing.settled_members_of_read read s listed
      exact EntitySchema.kept_of_read each decoded
    have again : readSchemas (Listing.write EntitySchema.encode schemas) = .ok schemas :=
      Listing.read_write (fun s listed => EntitySchema.encode_readsAs (kept s listed))
        fun s listed => EntitySchema.encode_fits (kept s listed) (integers s listed)
    exact ⟨again, congrArg _ again⟩
  · intro attributes
    have again : readAttributes (Listing.write Attribute.encode attributes) = .ok attributes :=
      Listing.read_write (fun a _ => a.encode_readsAs) fun a _ => a.encode_fits
    exact ⟨again, congrArg _ again⟩

/-- An alias with classifiers, and a property whose default value has its members out of order. -/
def keepingListing : String :=
  "[\x7b\"alias_for\":\x7b\"id\":\"Task\",\"classifiers\":[-1]\x7d,\"properties\":" ++
    "\x7b\"p\":\x7b\"default\":\x7b\"b\\n\":18446744073709551615,\"a\":\"\\u0007\"\x7d\x7d\x7d\x7d]"

def keptClassifiers : Value := .arr [.num (.int (-1))]

def keptDefault : Value := .obj [("a", .str "\x07"), ("b\n", .num (.int 0xffffffffffffffff))]

def keepingSchema : EntitySchema :=
  { EntitySchema.empty with aliasFor := some (.entity "Task" (some keptClassifiers)) }.addProperty "p"
    { Property.empty with default := some keptDefault }

theorem keepingListing_read_back :
    readSchemas keepingListing = .ok [keepingSchema] ∧
      (∀ s ∈ [keepingSchema], ∀ v ∈ s.keptValues, ∀ n ∈ v.numbers, n.IsInteger) ∧
      readSchemas (Listing.write EntitySchema.encode [keepingSchema]) = .ok [keepingSchema] := by
  have document : Value.read keepingListing = .ok (.arr [.obj
      [("alias_for", .obj [("classifiers", keptClassifiers), ("id", .str "Task")]),
        ("properties", .obj [("p", .obj [("default", keptDefault)])])]]) := by
    set_option maxRecDepth 1000 in
    with_unfolding_all rfl
  have read : readSchemas keepingListing = .ok [keepingSchema] := by
    rw [readSchemas, Listing.read, document]
    rfl
  have integers : ∀ s ∈ [keepingSchema], ∀ v ∈ s.keptValues, ∀ n ∈ v.numbers, n.IsInteger := by
    have values : keepingSchema.keptValues = [keptClassifiers, keptDefault] := rfl
    simp [values, keptClassifiers, keptDefault, Value.numbers, numbersOfItems, numbersOfMembers, Number.IsInteger]
  exact ⟨read, integers, ((listings_read_back keepingListing).1 _ read integers).1⟩

end EntityTypings
