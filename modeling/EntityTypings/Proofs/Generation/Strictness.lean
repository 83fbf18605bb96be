import EntityTypings.Proofs.Generation.Failure
import EntityTypings.Proofs.TypeScript.References

/-!
# Passes that refuse inconsistent listings

Strictness changes no output, it refuses some. What is left refers to nothing that it does not declare, apart
from the typed context itself: `strict_output_closed`.
-/

namespace EntityTypings

open TypeScript

/-- Every schema is declared, every mixin is extended, only properties are left out, and all names that the
declarations refer to are declared ids; the type parameter of the typed context is the one exception. -/
structure Output.Closed (o : Output) (j : Job) : Prop where
  declared : j.catalog.schemas.map EntitySchema.id? = o.interfaces.map some
  distinct : o.interfaces.Nodup
  written : ∀ i ∈ j.interfaces, o.Declares i
  skipped : ∀ err ∈ o.errors, ∃ site, err = .untypedProperty site ∨ err = .untypedItems site
  mixins : ∀ e ∈ j.catalog.entries, ∀ target, e.schema.mixin = some target → e.base? = some target
  bases : ∀ i ∈ j.interfaces, ∀ base, .base base ∈ i.parents → base ∈ o.interfaces
  element : ∀ name, j.catalog.attributeElement? = some name → name ∈ o.interfaces
  members : ∀ i ∈ j.interfaces, ∀ m ∈ i.members, ∀ name ∈ m.type.references, name ∈ o.interfaces ∨
    i.id = Dialect.typedContext ∧ m.name = Dialect.entityType ∧ name = Dialect.typeParameter

variable {schemas : List EntitySchema} {attributes : List Attribute} {settings : Settings}

/-! ### References of consistent listings -/

theorem SoftError.eq_of_site {err : SoftError} {site : PropertySite} (about : err.site? = some site) :
    err = .untypedProperty site ∨ err = .untypedItems site := by
  cases err <;> simp_all [SoftError.site?]

theorem ConsistentListing.ids_map (consistent : ConsistentListing schemas) :
    schemas.map EntitySchema.id? = (listedIds schemas).map some := by
  rw [listedIds, List.map_filterMap, ← List.filterMap_eq_map]
  refine List.filterMap_congr fun s listed => ?_
  obtain ⟨id, named⟩ := Option.ne_none_iff_exists'.mp (consistent.named s listed)
  simp [named]

theorem ConsistentListing.base?_eq {e : CatalogEntry} {target : String} (consistent : ConsistentListing schemas)
    (listed : e ∈ (Catalog.ofSchemas schemas).entries) (mixin : e.schema.mixin = some target) :
    e.base? = some target := by
  rw [Catalog.base?_eq_some listed]
  obtain ⟨s, member, rfl⟩ := List.mem_map.mp listed
  exact Catalog.base_mem_parentsIn.mpr ⟨mixin, (consistent.closed s member).mixin target mixin⟩

theorem ConsistentListing.attributeElement?_listed {name : String} (consistent : ConsistentListing schemas)
    (found : (Catalog.ofSchemas schemas).attributeElement? = some name) : name ∈ listedIds schemas := by
  obtain ⟨s, member, p, items, declared, held, refers⟩ := Catalog.attributeElement?_declared found
  have property := (consistent.closed s member).properties _ declared
  exact property.items items name held refers

theorem Property.Consistent.references {known : List String} {p : Property} (consistent : p.Consistent known)
    {site : PropertySite} {type : TypeExpr} (mapped : mapProperty site p = .ok (.typed type)) {name : String}
    (mentioned : name ∈ type.references) : name ∈ known := by
  rcases mapProperty_references mapped mentioned with refers | ⟨items, held, refers⟩
  · exact consistent.reference name refers
  · exact consistent.items items name held refers

/-! ### References of interfaces -/

namespace Job

variable {j : Job} {e : CatalogEntry} {id name : String} {m : Member}

theorem mem_added_references (added : m ∈ j.addedMembers id e) (mentioned : name ∈ m.type.references) :
    j.catalog.attributeElement? = some name ∨
      e.isTypedContext = true ∧ m.name = Dialect.entityType ∧ name = Dialect.typeParameter := by
  rcases mem_addedMembers added with ⟨_, rfl⟩ | rfl | rfl
  · exact .inl (Narrowing.fieldType_references mentioned)
  · cases typed : e.isTypedContext with
    | false =>
      simp only [typed] at mentioned
      cases mentioned
    | true =>
      simp only [typed] at mentioned
      exact .inr ⟨rfl, rfl, List.mem_singleton.mp mentioned⟩
  · cases mentioned

theorem mem_own_references {known : List String}
    (consistent : ∀ entry ∈ j.catalog.ownProperties e, entry.2.Consistent known)
    (own : m ∈ (j.catalog.ownProperties e).filterMap (j.member? id e.schema))
    (mentioned : name ∈ m.type.references) : name ∈ known := by
  obtain ⟨entry, listed, made⟩ := List.mem_filterMap.mp own
  obtain ⟨type, mapped, rfl⟩ := member?_eq_some.mp made
  exact (consistent entry listed).references mapped mentioned

theorem output_of_strictness (j : Job) (strict : Bool) :
    Job.output { j with settings := { j.settings with strict } } = j.output := by
  have reports : Job.reports { j with settings := { j.settings with strict } } = j.reports := by
    unfold Job.reports
    congr 1
    funext index e
    refine report_congr ?_ ?_ ?_ index <;> rfl
  rw [output, reports]
  rfl

end Job

theorem ConsistentListing.closed_output (consistent : ConsistentListing schemas)
    (faultless : (Job.ofListing schemas attributes settings).Faultless) :
    (Job.ofListing schemas attributes settings).output.Closed (.ofListing schemas attributes settings) := by
  have ids : (Job.ofListing schemas attributes settings).output.interfaces = listedIds schemas :=
    Job.output_ids faultless
  have entry_of {i : Interface} (made : i ∈ (Job.ofListing schemas attributes settings).interfaces) :=
    (Job.mem_interfaces faultless).mp made
  constructor
  case declared => rw [Catalog.schemas_ofSchemas, ids, consistent.ids_map]
  case distinct => exact ids ▸ consistent.distinct
  case written =>
    intro i made
    obtain ⟨e, listed, declared⟩ := List.mem_filterMap.mp made
    exact Job.output_declares listed declared
  case skipped =>
    intro err reported
    rw [Job.output_errors] at reported
    obtain ⟨r, listed, reported⟩ := List.mem_flatMap.mp reported
    obtain ⟨index, bound, rfl⟩ := List.mem_mapIdx.mp listed
    have listed := List.getElem_mem bound
    obtain ⟨id, named⟩ := Option.ne_none_iff_exists'.mp (consistent_entry consistent listed).1
    rw [Job.skipped_of_faultless named (faultless _ listed id named)] at reported
    obtain ⟨property, _, skipped⟩ := List.mem_filterMap.mp reported
    exact ⟨_, SoftError.eq_of_site (mapProperty_skipped_site (skip?_eq_some.mp skipped))⟩
  case mixins =>
    intro e listed target mixin
    exact consistent.base?_eq listed mixin
  case bases =>
    intro i made base extended
    obtain ⟨e, listed, id, _, rfl⟩ := entry_of made
    obtain ⟨s, _, rfl⟩ := List.mem_map.mp listed
    rw [ids]
    exact (Catalog.base_mem_parentsIn.mp extended).2
  case element =>
    intro name found
    rw [ids]
    exact consistent.attributeElement?_listed found
  case members =>
    intro i made m member name mentioned
    obtain ⟨e, listed, id, named, rfl⟩ := entry_of made
    rw [ids]
    rcases List.mem_append.mp member with own | added
    · exact .inl (Job.mem_own_references (consistent_entry consistent listed).2 own mentioned)
    · rcases Job.mem_added_references added mentioned with element | ⟨typed, parameter⟩
      · exact .inl (consistent.attributeElement?_listed element)
      · refine .inr ⟨?_, parameter⟩
        exact Option.some.inj (named.symm.trans (by simpa [CatalogEntry.isTypedContext] using typed))

/-- Where a pass that refuses inconsistent listings succeeds, one that does not gives the same output, and that
output is closed. -/
theorem strict_output_closed {o : Output} (nonempty : schemas ≠ []) (strict : settings.strict = true)
    (done : generate schemas attributes settings = .ok o) :
    generate schemas attributes { settings with strict := false } = .ok o ∧
      o.Closed (.ofListing schemas attributes settings) := by
  obtain ⟨accepted, faultless, rfl⟩ := generate_eq_ok nonempty done
  refine ⟨?_, (checkListing_eq_ok.mp (accepted strict)).closed_output faultless⟩
  have lenient : (Job.ofListing schemas attributes { settings with strict := false }).output =
      (Job.ofListing schemas attributes settings).output :=
    Job.output_of_strictness (.ofListing schemas attributes settings) false
  refine (generate_eq_ok_iff nonempty).mpr ⟨?_, faultless, lenient.symm⟩
  intro refusing
  cases refusing

/-- A typed context with custom attributes, an alias of it, and the element of the attributes. -/
def attributed : List EntitySchema :=
  [(EntitySchema.named "TypedContext").addProperty Dialect.customAttributes (.listOf "array" "Value"),
    { EntitySchema.named "Shot" with aliasFor := some (.bare "Task") },
    { (EntitySchema.named "Value").addProperty "source" (.referring "Shot") with mixin := some "TypedContext" }]

theorem attributed_output_closed : ∃ o,
    generate attributed [.everywhere "fps" "number"] { Settings.standard with strict := true } = .ok o ∧
    o.interfaces = ["TypedContext", "Shot", "Value"] ∧
    generate attributed [.everywhere "fps" "number"] .standard = .ok o ∧
    o.Closed (.ofListing attributed [.everywhere "fps" "number"] { Settings.standard with strict := true }) := by
  have done : generate attributed [.everywhere "fps" "number"] { Settings.standard with strict := true } =
    .ok _ := rfl
  obtain ⟨lenient, closed⟩ := strict_output_closed (List.cons_ne_nil _ _) rfl done
  exact ⟨_, done, rfl, lenient, closed⟩

end EntityTypings
