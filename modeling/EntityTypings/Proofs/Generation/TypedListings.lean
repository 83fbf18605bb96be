import EntityTypings.Proofs.Generation.InterfaceMembers
import EntityTypings.Proofs.TypeScript.Typing

/-!
# Listings without soft errors

Where every schema has an id and every property a type, a pass succeeds without a soft error and declares every
schema: `TypedListing.succeeds`. The members of its interfaces have the names of the properties that their entries
declare themselves, and behind those the names of the members that are added: `TypedListing.member_names`.
-/

namespace EntityTypings

open TypeScript

/-- Whether a property has a type is found by mapping it, at whatever place. -/
instance Property.decidableTyping (p : Property) : Decidable (∃ type, Typing p type) :=
  match mapped : mapProperty ⟨"", ""⟩ p with
  | .ok (.typed type) => .isTrue ⟨type, mapProperty_eq_typed.mp mapped⟩
  | .ok (.skipped _) => .isFalse fun typed => by
    obtain ⟨_, typing⟩ := typed
    rw [mapProperty_eq_typed.mpr typing] at mapped
    cases mapped
  | .error _ => .isFalse fun typed => by
    obtain ⟨_, typing⟩ := typed
    rw [mapProperty_eq_typed.mpr typing] at mapped
    cases mapped

/-- Every schema has an id, and every property a type that it is declared with. -/
structure TypedListing (schemas : List EntitySchema) : Prop where
  named : ∀ s ∈ schemas, ∃ id, s.id? = some id
  typed : ∀ s ∈ schemas, ∀ entry ∈ s.properties.entries, ∃ type, Typing entry.2 type

/-! ### Properties with types -/

section

variable {properties : List (String × Property)} (typed : ∀ entry ∈ properties, ∃ type, Typing entry.2 type)
  (id : String)

include typed

theorem faultless_of_typed : Faultless id properties := by
  intro entry listed failure fault
  obtain ⟨type, typing⟩ := typed entry listed
  have mapped := mapProperty_eq_error.mpr fault
  rw [mapProperty_eq_typed.mpr typing] at mapped
  cases mapped

theorem skips_of_typed : properties.filterMap (skip? id) = [] := by
  rw [List.filterMap_eq_nil_iff]
  intro entry listed
  obtain ⟨type, typing⟩ := typed entry listed
  unfold skip?
  rw [mapProperty_eq_typed.mpr typing]

theorem Job.names_of_typed (j : Job) (s : EntitySchema) :
    (properties.filterMap (j.member? id s)).map Member.name = properties.map Prod.fst := by
  rw [List.map_filterMap, ← List.filterMap_eq_map]
  refine List.filterMap_congr fun entry listed => ?_
  obtain ⟨type, typing⟩ := typed entry listed
  have made : j.member? id s entry = some (j.propertyMember s entry.1 entry.2 type) :=
    member?_eq_some.mpr ⟨type, mapProperty_eq_typed.mpr typing, rfl⟩
  rw [made]
  rfl

end

namespace TypedListing

variable {schemas : List EntitySchema} (listing : TypedListing schemas) {attributes : List Attribute}
  {settings : Settings}

include listing

theorem entry_named {e : CatalogEntry} (listed : e ∈ (Catalog.ofSchemas schemas).entries) :
    ∃ id, e.id? = some id := by
  obtain ⟨s, member, rfl⟩ := List.mem_map.mp listed
  exact listing.named s member

theorem own_typed {e : CatalogEntry} (listed : e ∈ (Catalog.ofSchemas schemas).entries) :
    ∀ entry ∈ (Catalog.ofSchemas schemas).ownProperties e, ∃ type, Typing entry.2 type := by
  obtain ⟨s, member, rfl⟩ := List.mem_map.mp listed
  exact fun entry own => listing.typed s member entry (Catalog.mem_ownProperties.mp own).1

theorem faultless : (Job.ofListing schemas attributes settings).Faultless :=
  fun _ listed id _ => faultless_of_typed (listing.own_typed listed) id

theorem output_errors : (Job.ofListing schemas attributes settings).output.errors = [] := by
  rw [Job.output_errors, List.flatMap_eq_nil_iff]
  intro report reported
  obtain ⟨index, bound, rfl⟩ := List.mem_mapIdx.mp reported
  have listed := List.getElem_mem bound
  obtain ⟨id, named⟩ := listing.entry_named listed
  rw [Job.skipped_of_faultless named (listing.faultless _ listed id named)]
  exact skips_of_typed (listing.own_typed listed) id

theorem ids : schemas.map EntitySchema.id? = (listedIds schemas).map some := by
  rw [listedIds, List.map_filterMap, ← List.filterMap_eq_map]
  refine List.filterMap_congr fun s listed => ?_
  obtain ⟨id, named⟩ := listing.named s listed
  rw [Function.comp_apply, named]
  rfl

/-- A listing with a type for every property is declared as a whole, and nothing is told about it. -/
theorem succeeds (nonempty : schemas ≠ []) (accepted : settings.strict = true → checkListing schemas = .ok ()) :
    generate schemas attributes settings =
        .ok (Job.ofListing schemas attributes settings).output ∧
      (Job.ofListing schemas attributes settings).output.errors = [] ∧
      (Job.ofListing schemas attributes settings).output.interfaces.map some = schemas.map EntitySchema.id? := by
  refine ⟨(generate_eq_ok_iff nonempty).mpr ⟨accepted, listing.faultless, rfl⟩, listing.output_errors, ?_⟩
  rw [Job.output_ids listing.faultless, listing.ids]

theorem member_names {i : Interface} (declared : i ∈ (Job.ofListing schemas attributes settings).interfaces) :
    ∃ s ∈ schemas, s.id? = some i.id ∧ i.parents = parentsIn schemas s ∧ i.members.map Member.name =
      ((Catalog.ofSchemas schemas).ownProperties ⟨s, parentsIn schemas s⟩).map Prod.fst ++
        ((if s.aliasTarget? = some Dialect.aliasedEntity then [Dialect.customAttributes] else []) ++
          Dialect.metaMembers) := by
  obtain ⟨e, listed, id, named, rfl⟩ := (Job.mem_interfaces listing.faultless).mp declared
  have own := listing.own_typed listed
  obtain ⟨s, member, rfl⟩ := List.mem_map.mp listed
  refine ⟨s, member, named, rfl, ?_⟩
  rw [List.map_append, Job.names_of_typed own, Job.addedMembers_names, Catalog.isAlias_parentsIn]
  simp only [decide_eq_true_eq]

end TypedListing

end EntityTypings
