import EntityTypings.Proofs.Generation.Reordering
import EntityTypings.Proofs.Generation.TypedListings
import EntityTypings.Proofs.Sample.Schemas
import EntityTypings.Proofs.TypeScript.InterfaceText

/-!
# The declarations of a sample

A sample of any size is well formed: `sample_well_formed`. Its ids are distinct, its properties have types, and its
attributes are dealt out to aliases that the sample has.
-/

namespace EntityTypings

open TypeScript

namespace Sample

/-! ### Numbered names -/

/-- The names with this stem and the first numbers. -/
def numbered (stem : String) (count : Nat) : List String := (List.range count).map fun i => stem ++ toString i

theorem numbered_injective (stem : String) : Function.Injective fun i : Nat => stem ++ toString i := by
  intro i k same
  have digits : Nat.toDigits 10 i = Nat.toDigits 10 k := by
    have texts := congrArg String.toList same
    simpa [Nat.toString_eq_repr, Nat.repr] using texts
  have value := congrArg (Nat.ofDigitChars 10 · 0) digits
  simpa [Nat.ofDigitChars_ten_toDigits] using value

theorem numbered_nodup (stem : String) (count : Nat) : (numbered stem count).Nodup :=
  List.nodup_range.map (numbered_injective stem)

theorem head_numbered {stem : String} {c : Char} (first : stem.toList.head? = some c) (i : Nat) :
    (stem ++ toString i).toList.head? = some c := by
  rw [String.toList_append, List.head?_append, first, Option.some_or]

theorem head_of_mem_numbered {stem id : String} {count : Nat} {c : Char} (first : stem.toList.head? = some c)
    (listed : id ∈ numbered stem count) : id.toList.head? = some c := by
  obtain ⟨i, _, rfl⟩ := List.mem_map.mp listed
  exact head_numbered first i

/-- The ids of a sample, in the order of its listing. -/
def ids (entities aliases : Nat) : List String :=
  "Context" :: "TypedContext" :: (numbered "Entity" entities ++ numbered "Alias" aliases)

theorem ids_nodup (entities aliases : Nat) : (ids entities aliases).Nodup := by
  have fresh {id : String} (entity : id.toList.head? ≠ some 'E') (other : id.toList.head? ≠ some 'A') :
      id ∉ numbered "Entity" entities ++ numbered "Alias" aliases := by
    intro listed
    rcases List.mem_append.mp listed with listed | listed
    · exact entity (head_of_mem_numbered rfl listed)
    · exact other (head_of_mem_numbered rfl listed)
  refine List.nodup_cons.mpr ⟨?_, List.nodup_cons.mpr ⟨fresh (by decide) (by decide), ?_⟩⟩
  · rw [List.mem_cons, not_or]
    exact ⟨by decide, fresh (by decide) (by decide)⟩
  · refine List.nodup_append.mpr ⟨numbered_nodup _ _, numbered_nodup _ _, ?_⟩
    rintro id listed _ listed' rfl
    have heads : some 'E' = some 'A' :=
      (head_of_mem_numbered rfl listed).symm.trans (head_of_mem_numbered rfl listed')
    exact absurd heads (by decide)

/-! ### The listing -/

variable {entities aliases : Nat}

theorem mem_listed {s : EntitySchema} : s ∈ listed entities aliases ↔ s = contextSchema ∨ s = typedContextSchema ∨
    (∃ i < entities, s = entitySchema i) ∨ ∃ i < aliases, s = aliasSchema i := by
  simp only [listed, List.mem_cons, List.mem_append, List.mem_map, List.mem_range, eq_comm]

theorem id?_named {s : EntitySchema} {id : String} {c : Char} (declared : s.declaredId = some id)
    (head : id.toList.head? = some c) : s.id? = some id := by
  refine EntitySchema.id?_eq_some.mpr ⟨declared, ?_⟩
  rintro rfl
  cases head

theorem entitySchema_id? (i : Nat) : (entitySchema i).id? = some ("Entity" ++ toString i) :=
  id?_named rfl (head_numbered rfl i)

theorem aliasSchema_id? (i : Nat) : (aliasSchema i).id? = some ("Alias" ++ toString i) :=
  id?_named rfl (head_numbered rfl i)

/-- The first letter of an id tells the kind of its schema. -/
theorem schema_of_head {s : EntitySchema} {id : String} (member : s ∈ listed entities aliases)
    (named : s.id? = some id) :
    (id.toList.head? = some 'E' → ∃ i, s = entitySchema i) ∧
      (id.toList.head? = some 'A' → ∃ i, s = aliasSchema i) := by
  rcases mem_listed.mp member with rfl | rfl | ⟨i, _, rfl⟩ | ⟨i, _, rfl⟩
  · cases named
    exact ⟨fun head => absurd head (by decide), fun head => absurd head (by decide)⟩
  · cases named
    exact ⟨fun head => absurd head (by decide), fun head => absurd head (by decide)⟩
  · obtain rfl := Option.some.inj ((entitySchema_id? i).symm.trans named)
    have first : ("Entity" ++ toString i).toList.head? = some 'E' := head_numbered rfl i
    exact ⟨fun _ => ⟨i, rfl⟩, fun head => absurd (first.symm.trans head) (by decide)⟩
  · obtain rfl := Option.some.inj ((aliasSchema_id? i).symm.trans named)
    have first : ("Alias" ++ toString i).toList.head? = some 'A' := head_numbered rfl i
    exact ⟨fun head => absurd (first.symm.trans head) (by decide), fun _ => ⟨i, rfl⟩⟩

theorem listed_ids (entities aliases : Nat) :
    (listed entities aliases).map EntitySchema.id? = (ids entities aliases).map some := by
  have each {schema : Nat → EntitySchema} {stem : String} (named : ∀ i, (schema i).id? = some (stem ++ toString i))
      (n : Nat) : ((List.range n).map schema).map EntitySchema.id? = (numbered stem n).map some := by
    rw [List.map_map, numbered, List.map_map]
    exact List.map_congr_left fun i _ => named i
  rw [listed, ids, List.map_cons, List.map_cons, List.map_append, each entitySchema_id?, each aliasSchema_id?,
    List.map_cons, List.map_cons, List.map_append]
  rfl

theorem typedListing (entities aliases : Nat) : TypedListing (listed entities aliases) where
  named s member := by
    have known : s.id? ∈ (ids entities aliases).map some := by
      rw [← listed_ids]
      exact List.mem_map_of_mem member
    obtain ⟨id, _, named⟩ := List.mem_map.mp known
    exact ⟨id, named.symm⟩
  typed s member := by
    have each {properties : List (String × Property)} (typed : ∀ e ∈ properties, ∃ type, Typing e.2 type) :
        ∀ e ∈ (NameTable.ofList properties).entries, ∃ type, Typing e.2 type :=
      fun e declared => typed e (NameTable.mem_ofList declared)
    rcases mem_listed.mp member with rfl | rfl | ⟨i, _, rfl⟩ | ⟨i, _, rfl⟩
    · exact each (by decide : ∀ e ∈ contextProperties, ∃ type, Typing e.2 type)
    · exact each (by decide : ∀ e ∈ typedContextProperties, ∃ type, Typing e.2 type)
    · exact each (by decide : ∀ e ∈ entityProperties, ∃ type, Typing e.2 type)
    · exact each (by decide : ∀ e ∈ aliasProperties, ∃ type, Typing e.2 type)

theorem listedIds_listed (entities aliases : Nat) : listedIds (listed entities aliases) = ids entities aliases := by
  have same := (typedListing entities aliases).ids.symm.trans (listed_ids entities aliases)
  exact List.map_injective_iff.mpr (Option.some_injective _) same

theorem listedIds_aliases (entities aliases : Nat) :
    listedIds ((listed entities aliases).filter EntitySchema.specialises) = numbered "Alias" aliases := by
  have plain : ((List.range entities).map entitySchema).filter EntitySchema.specialises = [] := by
    rw [List.filter_eq_nil_iff, List.forall_mem_map]
    exact fun i _ => Bool.false_ne_true
  have specialised : ((List.range aliases).map aliasSchema).filter EntitySchema.specialises =
      (List.range aliases).map aliasSchema := by
    rw [List.filter_eq_self, List.forall_mem_map]
    exact fun i _ => rfl
  have kept : (listed entities aliases).filter EntitySchema.specialises = (List.range aliases).map aliasSchema := by
    show (List.filter EntitySchema.specialises (_ ++ _)) = _
    rw [List.filter_append, plain, specialised, List.nil_append]
  rw [kept, listedIds, List.filterMap_map, numbered, ← List.filterMap_eq_map]
  exact List.filterMap_congr fun i _ => aliasSchema_id? i

/-! ### Properties that a sample declares -/

theorem own_entity (schemas : List EntitySchema) (i : Nat) :
    (((Catalog.ofSchemas schemas).ownProperties ⟨entitySchema i, parentsIn schemas (entitySchema i)⟩).map
      Prod.fst).Perm (numbered "field_" 16) := by
  have distinct : (entityProperties.map Prod.fst).Nodup := by decide
  have sorted : (entitySchema i).properties.entries.Perm entityProperties := NameTable.ofList_perm distinct
  have visible : (Catalog.ofSchemas schemas).ownProperties ⟨entitySchema i, parentsIn schemas (entitySchema i)⟩ =
      (entitySchema i).properties.entries.filter fun entry => !(entry.1.toList.head? == some '_') := by
    have parents : parentsIn schemas (entitySchema i) = [] := rfl
    have source : (Catalog.ofSchemas schemas).propertySource? ⟨entitySchema i, []⟩ = none := rfl
    have plain : CatalogEntry.isAlias ⟨entitySchema i, []⟩ = false := rfl
    rw [parents, Catalog.ownProperties, source, plain]
    simp
  rw [visible]
  -- the table has its names in order, where `field_10` comes before `field_2`
  exact (sorted.filter _).map _

theorem own_alias (entities aliases i : Nat) : ((Catalog.ofSchemas (listed entities aliases)).ownProperties
      ⟨aliasSchema i, parentsIn (listed entities aliases) (aliasSchema i)⟩).map Prod.fst =
    ["frame_end", "frame_start"] := by
  have parents : parentsIn (listed entities aliases) (aliasSchema i) = [.typedContext] := rfl
  have source : (Catalog.ofSchemas (listed entities aliases)).propertySource? ⟨aliasSchema i, [.typedContext]⟩ =
      some ⟨typedContextSchema, [.base "Context"]⟩ := rfl
  rw [parents, Catalog.ownProperties, source]
  -- of the three properties the typed context has `bid`
  rfl

/-! ### Attributes -/

theorem dealtAttribute_key (aliases i : Nat) : (dealtAttribute aliases i).key = "attribute_" ++ toString i := by
  unfold dealtAttribute
  split <;> rfl

theorem attributes_keys (count aliases : Nat) :
    (attributes count aliases).map Attribute.key = numbered "attribute_" count := by
  rw [attributes, List.map_map]
  exact List.map_congr_left fun i _ => dealtAttribute_key aliases i

/-- An attribute applies everywhere, or to one of the aliases, which there are then. -/
theorem mem_attributes {count : Nat} {a : Attribute} (dealt : a ∈ attributes count aliases) :
    a.hierarchical = true ∨
      a.hierarchical = false ∧ ∃ entity ∈ numbered "Alias" aliases, ∀ id, a.appliesTo id = true ↔ id = entity := by
  obtain ⟨i, _, rfl⟩ := List.mem_map.mp dealt
  unfold dealtAttribute
  dsimp only
  split
  · exact .inl rfl
  next dealt =>
    have present : 0 < aliases := by omega
    refine .inr ⟨rfl, _, List.mem_map_of_mem (List.mem_range.mpr (Nat.mod_lt i present)), fun id => ?_⟩
    show (some ("Alias" ++ toString (i % aliases)) == some id) = true ↔ id = "Alias" ++ toString (i % aliases)
    rw [beq_iff_eq, Option.some.injEq]
    exact eq_comm

/-! ### Declarations -/

/-- All schemas of a sample are declared, each plain entity with its sixteen fields and each alias without `bid`, the
union lists the aliases, and nothing is told. -/
structure Declared (entities aliases : Nat) (o : Output) (interfaces : List Interface) : Prop where
  silent : o.errors = []
  listed : o.interfaces = ids entities aliases
  named : interfaces.map Interface.id = ids entities aliases
  code : ∃ declarations, declarations = interfaces.map .interface ++
      [.subtypeUnion (numbered "Alias" aliases), .entityTypeMap (ids entities aliases)] ∧
    o.code = "\n".intercalate (declarations.map Declaration.render)
  plain : ∀ i ∈ interfaces, i.id ∈ numbered "Entity" entities →
    ∃ own, own.Perm (numbered "field_" 16) ∧ i.members.map Member.name = own ++ Dialect.metaMembers
  plainText : ∀ i ∈ interfaces, i.id ∈ numbered "Entity" entities →
    i.render = "export interface " ++ i.id ++ " \x7b\n" ++
      String.join (i.members.map fun m => m.doc.getD "" ++ ("  " ++ (if m.readOnly then "readonly " else "") ++
        propertyKey m.name ++ (if m.required then "" else "?") ++ ": " ++ m.type.render ++ ";\n")) ++ "\x7d\n"
  specialised : ∀ i ∈ interfaces, i.id ∈ numbered "Alias" aliases → i.parents = [.typedContext] ∧
    "bid" ∉ i.members.map Member.name ∧ i.members.map Member.name =
      "frame_end" :: "frame_start" :: Dialect.customAttributes :: Dialect.metaMembers
  specialisedText : ∀ i ∈ interfaces, i.id ∈ numbered "Alias" aliases →
    i.render = "export interface " ++ i.id ++
      " extends Omit<TypedContext<" ++ quote i.id ++ ">, \"__entity_type__\" | \"__permissions\"> \x7b\n" ++
      String.join (i.members.map fun m => m.doc.getD "" ++ ("  " ++ (if m.readOnly then "readonly " else "") ++
        propertyKey m.name ++ (if m.required then "" else "?") ++ ": " ++ m.type.render ++ ";\n")) ++ "\x7d\n"

theorem declarations_listed (entities aliases : Nat) (attributes : List Attribute) :
    (Job.ofListing (listed entities aliases) attributes .standard).declarations =
      (Job.ofListing (listed entities aliases) attributes .standard).interfaces.map .interface ++
        [.subtypeUnion (numbered "Alias" aliases), .entityTypeMap (ids entities aliases)] := by
  have distinct : (listedIds (listed entities aliases)).Nodup := by
    rw [listedIds_listed]
    exact ids_nodup entities aliases
  rw [Job.declarations_by_schema distinct (typedListing entities aliases).faultless, declarationsBy,
    ← Job.interfaces_by_schema, listedIds_aliases, listedIds_listed, List.append_assoc]
  rfl

theorem plain_members {attributes : List Attribute} {settings : Settings} {i : Interface}
    (declared : i ∈ (Job.ofListing (listed entities aliases) attributes settings).interfaces)
    (plain : i.id ∈ numbered "Entity" entities) :
    i.parents = [] ∧
      ∃ own, own.Perm (numbered "field_" 16) ∧ i.members.map Member.name = own ++ Dialect.metaMembers := by
  obtain ⟨s, member, named, parents, names⟩ := (typedListing entities aliases).member_names declared
  obtain ⟨k, rfl⟩ := (schema_of_head member named).1 (head_of_mem_numbered rfl plain)
  exact ⟨parents, _, own_entity (listed entities aliases) k, names⟩

theorem alias_members {attributes : List Attribute} {settings : Settings} {i : Interface}
    (declared : i ∈ (Job.ofListing (listed entities aliases) attributes settings).interfaces)
    (specialised : i.id ∈ numbered "Alias" aliases) :
    i.parents = [.typedContext] ∧ i.members.map Member.name =
      "frame_end" :: "frame_start" :: Dialect.customAttributes :: Dialect.metaMembers := by
  obtain ⟨s, member, named, parents, names⟩ := (typedListing entities aliases).member_names declared
  obtain ⟨k, rfl⟩ := (schema_of_head member named).2 (head_of_mem_numbered rfl specialised)
  rw [own_alias] at names
  exact ⟨parents, names⟩

theorem ne_typedContext_of_numbered {stem id : String} {count : Nat} {c : Char} (listed : id ∈ numbered stem count)
    (first : stem.toList.head? = some c) (other : c ≠ 'T') : id ≠ "TypedContext" := by
  rintro rfl
  exact other (Option.some.inj (head_of_mem_numbered first listed)).symm

theorem generate_listed (entities aliases : Nat) (attributes : List Attribute) :
    ∃ o interfaces, generate (listed entities aliases) attributes .standard = .ok o ∧
      Declared entities aliases o interfaces := by
  have typed := typedListing entities aliases
  have lenient : Settings.standard.strict = true → checkListing (listed entities aliases) = .ok () :=
    fun strict => absurd strict Bool.false_ne_true
  refine ⟨_, _, (typed.succeeds (List.cons_ne_nil _ _) lenient).1, typed.output_errors, ?_, ?_,
    ⟨_, declarations_listed entities aliases attributes, ?_⟩, fun i declared plain => (plain_members declared plain).2,
    fun i declared plain => ?_, fun i declared specialised => ?_, fun i declared specialised => ?_⟩
  · rw [Job.output_ids typed.faultless, listedIds_listed]
  · rw [Job.interfaces_ids typed.faultless, listedIds_listed]
  · rw [Job.output_code_declarations]
    exact String.empty_append
  · exact Interface.render_plain (ne_typedContext_of_numbered plain rfl (by decide)) (plain_members declared plain).1
  · obtain ⟨parents, names⟩ := alias_members declared specialised
    rw [names]
    exact ⟨parents, by decide, rfl⟩
  · exact Interface.render_specialised (ne_typedContext_of_numbered specialised rfl (by decide))
      (alias_members declared specialised).1

end Sample

open Sample

/-- A sample of any size is read, as a listing whose ids are distinct, and declared as a whole with the attributes that
are made for it. Their keys are distinct, and each of them that does not apply everywhere applies to one alias. -/
theorem sample_well_formed (entities aliases count : Nat) :
    ∃ listing, schemas entities aliases = .ok listing ∧ listing.length = entities + aliases + 2 ∧
      listing.map EntitySchema.id? = (ids entities aliases).map some ∧ (ids entities aliases).Nodup ∧
      (∃ o interfaces, generate listing (attributes count aliases) .standard = .ok o ∧
        Declared entities aliases o interfaces) ∧
      (attributes count aliases).length = count ∧ ((attributes count aliases).map Attribute.key).Nodup ∧
      (Catalog.ofSchemas listing).aliasIds = numbered "Alias" aliases ∧
      (∀ a ∈ attributes count aliases, a.hierarchical = false →
        ∃! id, id ∈ (Catalog.ofSchemas listing).aliasIds ∧ a.appliesTo id = true) ∧
      (aliases = 0 → ∀ a ∈ attributes count aliases, a.hierarchical = true) := by
  have specialised : (Catalog.ofSchemas (listed entities aliases)).aliasIds = numbered "Alias" aliases := by
    rw [Catalog.aliasIds_ofSchemas, listedIds_aliases]
  refine ⟨listed entities aliases, schemas_eq entities aliases, ?_, listed_ids entities aliases,
    ids_nodup entities aliases, generate_listed entities aliases _, ?_, ?_, specialised, ?_, ?_⟩
  · simp [listed]
  · simp [attributes]
  · rw [attributes_keys]
    exact numbered_nodup _ _
  · intro a dealt narrow
    rcases mem_attributes dealt with everywhere | ⟨_, entity, member, applies⟩
    · rw [narrow] at everywhere
      cases everywhere
    · rw [specialised]
      exact ⟨entity, ⟨member, (applies entity).mpr rfl⟩, fun id applied => (applies id).mp applied.2⟩
  · rintro rfl a dealt
    rcases mem_attributes dealt with everywhere | ⟨_, entity, member, _⟩
    · exact everywhere
    · exact absurd member List.not_mem_nil

end EntityTypings
