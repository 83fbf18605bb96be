import EntityTypings.Proofs.Inheritance.Catalog
import EntityTypings.Proofs.Schema.Consistency
import Mathlib.Data.List.Pairwise

/-!
# Listings in another order

Where no two schemas have one id, what an id means does not depend on the order of a listing:
`Catalog.find?_reordered`. Neither do the parents of a schema, the sources of its properties, and consistency.
-/

namespace EntityTypings

variable {schemas schemas' : List EntitySchema} {s : EntitySchema} {e : CatalogEntry} {id : String}

theorem listedIds_reordered (order : schemas.Perm schemas') : (listedIds schemas).Perm (listedIds schemas') :=
  order.filterMap _

/-! ### Look-ups -/

theorem eq_of_id?_eq {t : EntitySchema} (distinct : (listedIds schemas).Nodup) (left : s ∈ schemas)
    (right : t ∈ schemas) (named : s.id? = some id) (same : t.id? = some id) : s = t := by
  have apart : schemas.Pairwise fun a b => ∀ i, a.id? = some i → ∀ k, b.id? = some k → i ≠ k :=
    List.pairwise_filterMap.mp distinct
  have symmetric : Std.Symm fun a b : EntitySchema => ∀ i, a.id? = some i → ∀ k, b.id? = some k → i ≠ k :=
    ⟨fun _ _ apart i first k second => (apart k second i first).symm⟩
  apply Classical.byContradiction
  intro different
  exact apart.forall left right different id named id same rfl

theorem findSchema?_eq_some (distinct : (listedIds schemas).Nodup) :
    findSchema? schemas id = some s ↔ s ∈ schemas ∧ s.id? = some id := by
  constructor
  · intro found
    exact ⟨List.mem_of_find?_eq_some found, by simpa using List.find?_some found⟩
  · rintro ⟨listed, named⟩
    have present : (findSchema? schemas id).isSome = true :=
      List.find?_isSome.mpr ⟨s, listed, by simpa using named⟩
    obtain ⟨t, found⟩ := Option.isSome_iff_exists.mp present
    have same : t.id? = some id := by simpa using List.find?_some found
    rw [found, eq_of_id?_eq distinct (List.mem_of_find?_eq_some found) listed same named]

theorem findSchema?_reordered (order : schemas.Perm schemas') (distinct : (listedIds schemas).Nodup) :
    findSchema? schemas = findSchema? schemas' := by
  funext id
  have distinct' := (listedIds_reordered order).nodup_iff.mp distinct
  apply Option.ext
  intro s
  rw [findSchema?_eq_some distinct, findSchema?_eq_some distinct', order.mem_iff]

theorem parentsIn_reordered (order : schemas.Perm schemas') (distinct : (listedIds schemas).Nodup) :
    parentsIn schemas = parentsIn schemas' := by
  funext s
  rw [parentsIn, parentsIn, findSchema?_reordered order distinct]

namespace Catalog

theorem entries_reordered (order : schemas.Perm schemas') (distinct : (listedIds schemas).Nodup) :
    (ofSchemas schemas).entries.Perm (ofSchemas schemas').entries := by
  rw [ofSchemas, ofSchemas, parentsIn_reordered order distinct]
  exact order.map _

theorem find?_reordered (order : schemas.Perm schemas') (distinct : (listedIds schemas).Nodup) :
    (ofSchemas schemas).find? = (ofSchemas schemas').find? := by
  funext id
  rw [find?_ofSchemas, find?_ofSchemas, findSchema?_reordered order distinct, parentsIn_reordered order distinct]

/-! ### What look-ups decide -/

variable {c c' : Catalog}

theorem attributeElement?_congr (same : c.find? = c'.find?) : c.attributeElement? = c'.attributeElement? := by
  rw [attributeElement?, attributeElement?, typedContext?, typedContext?, same]

theorem propertySource?_congr (same : c.find? = c'.find?) : c.propertySource? e = c'.propertySource? e := by
  rw [propertySource?, propertySource?, typedContext?, typedContext?, same]

theorem ownProperties_congr (same : c.find? = c'.find?) : c.ownProperties e = c'.ownProperties e := by
  rw [ownProperties, ownProperties, propertySource?_congr same]

end Catalog

/-! ### Consistency -/

theorem Property.Consistent.mono {known known' : List String} {p : Property} (more : known ⊆ known')
    (consistent : p.Consistent known) : p.Consistent known' where
  reference target refers := more (consistent.reference target refers)
  declared := consistent.declared
  items items target held refers := more (consistent.items items target held refers)

theorem EntitySchema.Consistent.mono {known known' : List String} (more : known ⊆ known')
    (consistent : s.Consistent known) : s.Consistent known' where
  mixin target extended := more (consistent.mixin target extended)
  properties entry listed := (consistent.properties entry listed).mono more

theorem ConsistentListing.reordered (order : schemas.Perm schemas') (consistent : ConsistentListing schemas) :
    ConsistentListing schemas' where
  named s listed := consistent.named s (order.mem_iff.mpr listed)
  distinct := (listedIds_reordered order).nodup_iff.mp consistent.distinct
  closed s listed := (consistent.closed s (order.mem_iff.mpr listed)).mono (listedIds_reordered order).subset

end EntityTypings
