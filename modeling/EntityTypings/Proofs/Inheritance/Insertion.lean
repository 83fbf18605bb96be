import EntityTypings.Proofs.Inheritance.Catalog

/-!
# Listings with one more schema

A schema that nothing in a listing can mean may be put anywhere into it: what the other schemas extend, where
their properties come from and which of them they declare themselves stays the same. `Catalog.entries_inserted`
and `Catalog.ownProperties_inserted` are the two statements that passes build on.
-/

namespace EntityTypings

/-- If the schema has an id, then the listing neither has nor extends it, and it is not the typed context's. -/
def EntitySchema.UnrelatedTo (s : EntitySchema) (schemas : List EntitySchema) : Prop :=
  ∀ id, s.id? = some id →
    id ≠ Dialect.typedContext ∧ id ∉ listedIds schemas ∧ ∀ t ∈ schemas, t.mixin ≠ some id

variable {before after : List EntitySchema} {s t : EntitySchema} {e : CatalogEntry} {id : String}

theorem findSchema?_inserted (other : s.id? ≠ some id) :
    findSchema? (before ++ s :: after) id = findSchema? (before ++ after) id := by
  have passed : (s.id? == some id) = false := beq_false_of_ne other
  simp only [findSchema?, List.find?_append, List.find?_cons, passed]

namespace EntitySchema.UnrelatedTo

theorem of_unnamed {schemas : List EntitySchema} (unnamed : s.id? = none) : s.UnrelatedTo schemas := by
  intro id named
  rw [unnamed] at named
  cases named

theorem ne_typedContext {schemas : List EntitySchema} (unrelated : s.UnrelatedTo schemas) :
    s.id? ≠ some Dialect.typedContext :=
  fun named => (unrelated _ named).1 rfl

theorem ne_mixin {schemas : List EntitySchema} (unrelated : s.UnrelatedTo schemas) (listed : t ∈ schemas)
    (extended : t.mixin = some id) : s.id? ≠ some id :=
  fun named => (unrelated _ named).2.2 t listed extended

theorem parentsIn_eq (unrelated : s.UnrelatedTo (before ++ after)) (listed : t ∈ before ++ after) :
    parentsIn (before ++ s :: after) t = parentsIn (before ++ after) t := by
  unfold parentsIn
  cases extended : t.mixin with
  | none => rfl
  | some target => simp only [findSchema?_inserted (unrelated.ne_mixin listed extended)]

end EntitySchema.UnrelatedTo

namespace Catalog

/-- The entries of a part of a listing. -/
def entriesIn (schemas part : List EntitySchema) : List CatalogEntry :=
  part.map fun t => ⟨t, parentsIn schemas t⟩

theorem entries_append (before after : List EntitySchema) : (ofSchemas (before ++ after)).entries =
    entriesIn (before ++ after) before ++ entriesIn (before ++ after) after := List.map_append

theorem entries_inserted (unrelated : s.UnrelatedTo (before ++ after)) :
    (ofSchemas (before ++ s :: after)).entries = entriesIn (before ++ after) before ++
      ⟨s, parentsIn (before ++ s :: after) s⟩ :: entriesIn (before ++ after) after := by
  have kept {part : List EntitySchema} (within : part ⊆ before ++ after) :
      entriesIn (before ++ s :: after) part = entriesIn (before ++ after) part := by
    refine List.map_congr_left fun t listed => ?_
    rw [unrelated.parentsIn_eq (within listed)]
  rw [← kept (List.subset_append_left before after), ← kept (List.subset_append_right before after)]
  simp only [ofSchemas, entriesIn, List.map_append, List.map_cons]

theorem find?_inserted (unrelated : s.UnrelatedTo (before ++ after)) (other : s.id? ≠ some id) :
    (ofSchemas (before ++ s :: after)).find? id = (ofSchemas (before ++ after)).find? id := by
  rw [find?_ofSchemas, find?_ofSchemas, findSchema?_inserted other]
  cases found : findSchema? (before ++ after) id with
  | none => rfl
  | some t =>
    have listed : t ∈ before ++ after := List.mem_of_find?_eq_some found
    rw [Option.map_some, Option.map_some, unrelated.parentsIn_eq listed]

theorem typedContext?_inserted (unrelated : s.UnrelatedTo (before ++ after)) :
    (ofSchemas (before ++ s :: after)).typedContext? = (ofSchemas (before ++ after)).typedContext? :=
  find?_inserted unrelated unrelated.ne_typedContext

theorem attributeElement?_inserted (unrelated : s.UnrelatedTo (before ++ after)) :
    (ofSchemas (before ++ s :: after)).attributeElement? = (ofSchemas (before ++ after)).attributeElement? := by
  rw [attributeElement?, attributeElement?, typedContext?_inserted unrelated]

theorem propertySource?_inserted (unrelated : s.UnrelatedTo (before ++ after))
    (listed : e ∈ (ofSchemas (before ++ after)).entries) :
    (ofSchemas (before ++ s :: after)).propertySource? e = (ofSchemas (before ++ after)).propertySource? e := by
  unfold propertySource?
  rw [typedContext?_inserted unrelated]
  cases extended : e.base? with
  | none => rfl
  | some base =>
    -- A base is looked up under a mixin of the listing, and no mixin of it names the schema put in.
    have parent := (base?_eq_some listed).mp extended
    obtain ⟨t, member, rfl⟩ := List.mem_map.mp listed
    have mixin : t.mixin = some base := (base_mem_parentsIn.mp parent).1
    rw [Option.bind_some, Option.bind_some, find?_inserted unrelated (unrelated.ne_mixin member mixin)]

theorem ownProperties_inserted (unrelated : s.UnrelatedTo (before ++ after))
    (listed : e ∈ (ofSchemas (before ++ after)).entries) :
    (ofSchemas (before ++ s :: after)).ownProperties e = (ofSchemas (before ++ after)).ownProperties e := by
  rw [ownProperties, ownProperties, propertySource?_inserted unrelated listed]

end Catalog

end EntityTypings
