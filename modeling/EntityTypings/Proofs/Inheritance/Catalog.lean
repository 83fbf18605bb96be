import EntityTypings.Catalog
import EntityTypings.Schema.Consistency

/-!
# Resolved inheritance

What a catalog finds under an id, and what the interface of a listed schema extends: its mixin, if the
listing has that id (`base_mem_parentsIn`), and the typed context, if it is an alias (`isAlias_parentsIn`).
-/

namespace EntityTypings

theorem NameTable.mem_of_lookup {α : Type} {t : NameTable α} {name : String} {value : α}
    (found : t.lookup name = some value) : (name, value) ∈ t.entries := by
  obtain ⟨before, after, split, _⟩ := List.lookup_eq_some_iff.mp found
  exact split ▸ List.mem_append_right _ List.mem_cons_self

namespace Catalog

variable {c : Catalog} {schemas : List EntitySchema} {e source : CatalogEntry} {id : String}

/-! ### Entries by id -/

theorem ne_nil_of_listed (listed : e ∈ (ofSchemas schemas).entries) : schemas ≠ [] := by
  rintro rfl
  exact absurd listed List.not_mem_nil

theorem find?_eq_some (found : c.find? id = some e) : e ∈ c.entries ∧ e.id? = some id :=
  ⟨List.mem_of_find?_eq_some found, by simpa using List.find?_some found⟩

theorem find?_isSome : (∃ e, c.find? id = some e) ↔ ∃ e ∈ c.entries, e.id? = some id := by
  rw [← Option.isSome_iff_exists, find?, List.find?_isSome]
  simp only [beq_iff_eq]

theorem entries_ids (schemas : List EntitySchema) :
    (ofSchemas schemas).entries.filterMap CatalogEntry.id? = listedIds schemas := by
  rw [ofSchemas, List.filterMap_map]
  rfl

theorem found_iff_listed : (∃ e, (ofSchemas schemas).find? id = some e) ↔ id ∈ listedIds schemas := by
  rw [find?_isSome, ← entries_ids, List.mem_filterMap]

theorem typedContext?_isSome :
    (ofSchemas schemas).typedContext?.isSome = true ↔ Dialect.typedContext ∈ listedIds schemas := by
  rw [Option.isSome_iff_exists]
  exact found_iff_listed

theorem attributeElement?_declared (found : (ofSchemas schemas).attributeElement? = some id) :
    ∃ s ∈ schemas, ∃ p items, (Dialect.customAttributes, p) ∈ s.properties.entries ∧ p.items = some items ∧
      items.reference = some id := by
  obtain ⟨e, typed, found⟩ := Option.bind_eq_some_iff.mp found
  obtain ⟨p, declared, found⟩ := Option.bind_eq_some_iff.mp found
  obtain ⟨items, held, refers⟩ := Option.bind_eq_some_iff.mp found
  obtain ⟨s, member, rfl⟩ := List.mem_map.mp (find?_eq_some typed).1
  exact ⟨s, member, p, items, NameTable.mem_of_lookup declared, held, refers⟩

/-! ### What an interface extends -/

theorem isAlias_iff : e.isAlias = true ↔ Parent.typedContext ∈ e.parents := List.contains_iff_mem

theorem found_schema_iff_listed : (findSchema? schemas id).isSome = true ↔ id ∈ listedIds schemas := by
  rw [← found_iff_listed, ← Option.isSome_iff_exists, find?_ofSchemas, Option.isSome_map]

theorem parentsIn_parts (schemas : List EntitySchema) (s : EntitySchema) : parentsIn schemas s =
    ((s.mixin.filter fun target => (findSchema? schemas target).isSome).map Parent.base).toList ++
      if s.aliasTarget? = some Dialect.aliasedEntity then [.typedContext] else [] := by
  unfold parentsIn
  cases s.mixin with
  | none => rfl
  | some target =>
    cases known : (findSchema? schemas target).isSome <;> simp only [Option.filter_some, known] <;> rfl

/-- There is one base at most, so that it is the base that is found. -/
theorem base?_parentsIn (schemas : List EntitySchema) (s : EntitySchema) :
    CatalogEntry.base? ⟨s, parentsIn schemas s⟩ =
      s.mixin.filter fun target => (findSchema? schemas target).isSome := by
  unfold CatalogEntry.base?
  rw [parentsIn_parts]
  cases s.mixin.filter fun target => (findSchema? schemas target).isSome with
  | none => split <;> rfl
  | some target => rfl

theorem isAlias_parentsIn (schemas : List EntitySchema) (s : EntitySchema) :
    CatalogEntry.isAlias ⟨s, parentsIn schemas s⟩ = decide (s.aliasTarget? = some Dialect.aliasedEntity) := by
  unfold CatalogEntry.isAlias
  rw [parentsIn_parts]
  by_cases specialises : s.aliasTarget? = some Dialect.aliasedEntity <;>
    cases s.mixin.filter fun target => (findSchema? schemas target).isSome <;> simp [specialises]

theorem base_mem_parentsIn {s : EntitySchema} :
    .base id ∈ parentsIn schemas s ↔ s.mixin = some id ∧ id ∈ listedIds schemas := by
  have no_alias : Parent.base id ∉
      (if s.aliasTarget? = some Dialect.aliasedEntity then [.typedContext] else []) := by
    split <;> simp
  rw [parentsIn_parts, List.mem_append, or_iff_left no_alias, ← found_schema_iff_listed, Option.mem_toList,
    Option.map_eq_some_iff]
  simp only [Parent.base.injEq, exists_eq_right, Option.filter_eq_some_iff]

theorem base?_eq_some (listed : e ∈ (ofSchemas schemas).entries) :
    e.base? = some id ↔ .base id ∈ e.parents := by
  obtain ⟨s, _, rfl⟩ := List.mem_map.mp listed
  rw [base?_parentsIn, Option.filter_eq_some_iff, found_schema_iff_listed]
  exact base_mem_parentsIn.symm

/-! ### Sources of properties -/

theorem propertySource?_found (found : c.propertySource? e = some source) :
    ∃ id, c.find? id = some source := by
  unfold propertySource? at found
  split at found
  · exact ⟨_, found⟩
  · obtain ⟨base, _, found⟩ := Option.bind_eq_some_iff.mp found
    exact ⟨base, found⟩

theorem mem_ownProperties {entry : String × Property} :
    entry ∈ c.ownProperties e ↔ entry ∈ e.schema.properties.entries ∧
      entry.1.toList.head? ≠ some '_' ∧
      (∀ source, c.propertySource? e = some source → source.schema.hasProperty entry.1 = false) ∧
      ¬(e.isAlias = true ∧ entry.1 = Dialect.customAttributes) := by
  rw [ownProperties, List.mem_filter]
  cases c.propertySource? e <;> cases e.isAlias <;> simp [and_assoc]

end Catalog

/-- An alias over the typed context over a base; all three have the property `id`. -/
def layered : List EntitySchema :=
  [(EntitySchema.named "Context").addProperty "id" (.typed "string"),
    { (EntitySchema.named "TypedContext").addProperty "id" (.typed "string") with mixin := some "Context" },
    { (EntitySchema.named "Shot").addProperty "id" (.typed "string") with aliasFor := some (.bare "Task") }]

end EntityTypings
