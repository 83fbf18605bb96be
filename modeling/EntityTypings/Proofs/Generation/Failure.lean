import EntityTypings.Proofs.Generation.Outcome
import EntityTypings.Proofs.Schema.Consistency

/-!
# When a pass fails

The check of a listing looks at the references of items, but not at their type names. This is the one way
in which a pass over a consistent listing can stop at a property: `consistent_pass_fails_iff`.
-/

namespace EntityTypings

open TypeScript

variable {schemas : List EntitySchema} {attributes : List Attribute} {settings : Settings}

/-- A list whose items are given by a type name alone, one that is unknown or names a list again. -/
def Property.BadItemType (p : Property) : Prop :=
  ∃ itemType, p.TypesItems itemType ∧ ∀ t, DeclaredType.ofName? itemType = some t → t.isArrayLike = true

theorem fault_of_consistent {known : List String} {site : PropertySite} {p : Property}
    (consistent : p.Consistent known) : (∃ failure, Fault site p failure) ↔ p.BadItemType := by
  constructor
  · rintro ⟨failure, fault⟩
    cases fault with
    | unknownType _ declared unknown =>
      obtain ⟨t, known, _⟩ := consistent.declared _ declared
      rw [unknown] at known
      cases known
    | missingItems _ declared known list absent =>
      obtain ⟨t, same, held⟩ := consistent.declared _ declared
      obtain rfl := Option.some.inj (known.symm.trans same)
      exact absurd absent (held list)
    | unknownItemType typed unknown =>
      refine ⟨_, typed, fun t known => ?_⟩
      rw [unknown] at known
      cases known
    | nestedList typed known list =>
      refine ⟨_, typed, fun t same => ?_⟩
      obtain rfl := Option.some.inj (known.symm.trans same)
      exact list
  · rintro ⟨itemType, typed, bad⟩
    cases known : DeclaredType.ofName? itemType with
    | none => exact ⟨_, .unknownItemType typed known⟩
    | some t => exact ⟨_, .nestedList typed known (bad t known)⟩

/-- Apart from a refusal, a pass fails exactly for a property that stops it. -/
theorem generate_fails_iff (accepted : settings.strict = true → checkListing schemas = .ok ()) :
    (∃ failure, generate schemas attributes settings = .error (.mapping failure)) ↔
      ¬(Job.ofListing schemas attributes settings).Faultless := by
  by_cases nonempty : schemas = []
  · subst nonempty
    simp [generate_nil, Job.Faultless, Catalog.ofSchemas]
  · rw [generate_of_accepted nonempty accepted, ← Job.firstFailure?_reports]
    cases firstFailure? (Job.ofListing schemas attributes settings).reports <;> simp

theorem consistent_entry {e : CatalogEntry} (consistent : ConsistentListing schemas)
    (listed : e ∈ (Catalog.ofSchemas schemas).entries) :
    e.id? ≠ none ∧ ∀ entry ∈ (Catalog.ofSchemas schemas).ownProperties e,
      entry.2.Consistent (listedIds schemas) := by
  obtain ⟨s, member, rfl⟩ := List.mem_map.mp listed
  refine ⟨consistent.named s member, fun entry own => ?_⟩
  exact (consistent.closed s member).properties entry (List.mem_filter.mp own).1

/-- Whatever the attributes and the settings, a pass over a consistent listing stops at a property exactly
if some interface declares a property itself whose items have a bad type. -/
theorem consistent_pass_fails_iff (attributes : List Attribute) (settings : Settings)
    (consistent : checkListing schemas = .ok ()) :
    (∃ failure, generate schemas attributes settings = .error (.mapping failure)) ↔
      ∃ e ∈ (Catalog.ofSchemas schemas).entries,
        ∃ entry ∈ (Catalog.ofSchemas schemas).ownProperties e, entry.2.BadItemType := by
  have listing := checkListing_eq_ok.mp consistent
  rw [generate_fails_iff fun _ => consistent]
  constructor
  · intro faulty
    apply Classical.byContradiction
    intro clean
    refine faulty fun e listed id _ entry own failure fault => clean ⟨e, listed, entry, own, ?_⟩
    exact (fault_of_consistent ((consistent_entry listing listed).2 entry own)).mp ⟨failure, fault⟩
  · rintro ⟨e, listed, entry, own, bad⟩ faultless
    obtain ⟨present, properties⟩ := consistent_entry listing listed
    obtain ⟨id, named⟩ := Option.ne_none_iff_exists'.mp present
    obtain ⟨failure, fault⟩ : ∃ failure, Fault ⟨id, entry.1⟩ entry.2 failure :=
      (fault_of_consistent (properties entry own)).mpr bad
    exact faultless e listed id named entry own failure fault

/-- One schema, whose tags are a list of items of a type given by name. -/
def taggedShot (itemType : String) : List EntitySchema :=
  [(EntitySchema.named "Shot").addProperty "tags"
    { Property.typed "array" with items := some ⟨none, some itemType⟩ }]

theorem nested_items_found :
    checkListing (taggedShot "array") = .ok () ∧
      ∃ e ∈ (Catalog.ofSchemas (taggedShot "array")).entries,
        ∃ entry ∈ (Catalog.ofSchemas (taggedShot "array")).ownProperties e, entry.2.BadItemType :=
  ⟨rfl, (consistent_pass_fails_iff [] .standard rfl).mp ⟨.missingItems ⟨"Shot", "tags"⟩, rfl⟩⟩

/-- Consistency does not rule out a failure, even if inconsistent listings are refused. -/
theorem consistent_pass_fails :
    checkListing (taggedShot "datetime") = .ok () ∧
      generate (taggedShot "datetime") [] { Settings.standard with strict := true } =
        .error (.mapping (.unknownType "datetime" ⟨"Shot", "tags"⟩)) :=
  ⟨rfl, rfl⟩

end EntityTypings
