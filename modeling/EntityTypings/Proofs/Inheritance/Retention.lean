import EntityTypings.Proofs.Generation.Outcome
import EntityTypings.Proofs.Inheritance.Catalog
import EntityTypings.Proofs.Inheritance.Chain
import EntityTypings.Proofs.TypeScript.InterfaceText

/-!
# No property is lost to inheritance

An interface leaves out a property that its source declares, whatever becomes of it there. Along the chain
of sources such a property is still declared or reported: `property_kept_along_sources`.
-/

namespace EntityTypings

open TypeScript

/-- The interface of an entry is declared with a member of this name, which has a line of its own. -/
def Output.Emits (o : Output) (j : Job) (e : CatalogEntry) (name : String) : Prop :=
  ∃ i earlier m later, j.interface? e = some i ∧ o.Declares i ∧ i.members = earlier ++ m :: later ∧ m.name = name ∧
    i.render = "export interface " ++
      (if i.id = "TypedContext" then "TypedContext<K extends TypedContextSubtype = TypedContextSubtype>" else i.id) ++
      (if i.parents = [] then "" else " extends " ++ ", ".intercalate (i.parents.map fun parent =>
        "Omit<" ++ parentName i.id parent ++ ", \"__entity_type__\" | \"__permissions\">")) ++ " \x7b\n" ++
      (renderMembers earlier ++ (m.doc.getD "" ++ ("  " ++ (if m.readOnly then "readonly " else "") ++
        propertyKey name ++ (if m.required then "" else "?") ++ ": " ++ m.type.render ++ ";\n") ++
        renderMembers later)) ++ "\x7d\n"

/-- A soft error reports a property of an entry under the entry's id. -/
def Output.ReportsFor (o : Output) (e : CatalogEntry) (name : String) : Prop :=
  ∃ id, e.id? = some id ∧ ∃ err ∈ o.errors, err.site? = some ⟨id, name⟩

theorem NameTable.mem_of_contains {α : Type} {t : NameTable α} {name : String}
    (contained : t.contains name = true) : ∃ value, (name, value) ∈ t.entries := by
  obtain ⟨value, found⟩ := Option.isSome_iff_exists.mp contained
  exact ⟨value, mem_of_lookup found⟩

namespace Job

variable {j : Job} {e : CatalogEntry} {id name : String}

theorem reports_for {err : SoftError} (entry : e ∈ j.catalog.entries)
    (named : e.id? = some id) (faultless : EntityTypings.Faultless id (j.catalog.ownProperties e))
    {p : Property} (own : (name, p) ∈ j.catalog.ownProperties e)
    (skipped : skip? id (name, p) = some err) : j.output.ReportsFor e name := by
  obtain ⟨index, reported⟩ := report_listed entry
  refine ⟨id, named, err, ?_, mapProperty_skipped_site (skip?_eq_some.mp skipped)⟩
  rw [output_errors]
  refine List.mem_flatMap.mpr ⟨_, reported, ?_⟩
  rw [skipped_of_faultless named faultless]
  exact List.mem_filterMap.mpr ⟨_, own, skipped⟩

theorem emits_of_mem {o : Output} {i : Interface} {m : Member} (interface : j.interface? e = some i)
    (declared : o.Declares i) (member : m ∈ i.members) : o.Emits j e m.name := by
  obtain ⟨earlier, later, split⟩ := List.append_of_mem member
  exact ⟨i, earlier, m, later, interface, declared, split, rfl, Interface.render_split split⟩

/-- A property of an entry is declared or reported there, or the entry's source has it as well. -/
theorem property_kept (faultless : j.Faultless) (entry : e ∈ j.catalog.entries)
    (named : e.id? = some id) (present : e.schema.hasProperty name = true)
    (visible : name.toList.head? ≠ some '_') :
    j.output.Emits j e name ∨ j.output.ReportsFor e name ∨
      ∃ source, j.catalog.propertySource? e = some source ∧ source.schema.hasProperty name = true := by
  have sound := faultless e entry id named
  have interface := interface?_of_faultless named sound
  have declared := output_declares entry interface
  obtain ⟨p, member⟩ := NameTable.mem_of_contains present
  by_cases inherited : ∃ source, j.catalog.propertySource? e = some source ∧
      source.schema.hasProperty name = true
  · exact .inr (.inr inherited)
  by_cases narrowed : e.isAlias = true ∧ name = Dialect.customAttributes
  · -- An alias drops its own attributes and declares them narrowed.
    obtain ⟨specialises, rfl⟩ := narrowed
    exact .inl (emits_of_mem interface declared
      (List.mem_append_right _ (narrowed_mem_addedMembers specialises)))
  have own : (name, p) ∈ j.catalog.ownProperties e := by
    refine Catalog.mem_ownProperties.mpr ⟨member, visible, fun source found => ?_, narrowed⟩
    cases has : source.schema.hasProperty name with
    | false => rfl
    | true => exact absurd ⟨source, found, has⟩ inherited
  cases mapped : mapProperty ⟨id, name⟩ p with
  | error failure => exact absurd (mapProperty_eq_error.mp mapped) (sound _ own failure)
  | ok outcome =>
    cases outcome with
    | skipped err => exact .inr (.inl (reports_for entry named sound own (skip?_eq_some.mpr mapped)))
    | typed t =>
      have made : j.member? id e.schema (name, p) = some (j.propertyMember e.schema name p t) := by
        simp [member?, mapped]
      exact .inl (emits_of_mem interface declared
        (List.mem_append_left _ (List.mem_filterMap.mpr ⟨_, own, made⟩)))

/-- Whatever the chain of sources reaches has an id and the property, unless an earlier entry declares or
reports it. -/
theorem property_kept_until (faultless : j.Faultless) (entry : e ∈ j.catalog.entries)
    (named : e.id? = some id) (present : e.schema.hasProperty name = true)
    (visible : name.toList.head? ≠ some '_') {n : Nat} {x : CatalogEntry}
    (reached : after? j.catalog.propertySource? n e = some x) :
    (∃ k < n, ∃ y, after? j.catalog.propertySource? k e = some y ∧
      (j.output.Emits j y name ∨ j.output.ReportsFor y name)) ∨
    (x ∈ j.catalog.entries ∧ x.id? ≠ none ∧ x.schema.hasProperty name = true) := by
  induction n generalizing x with
  | zero =>
    obtain rfl := Option.some.inj reached
    exact .inr ⟨entry, by simp [named], present⟩
  | succ n ih =>
    rw [after?_succ] at reached
    obtain ⟨y, before, stepped⟩ := Option.bind_eq_some_iff.mp reached
    rcases ih before with ⟨k, earlier, found⟩ | ⟨listed, hasId, has⟩
    · exact .inl ⟨k, Nat.lt_succ_of_lt earlier, found⟩
    · obtain ⟨yid, yNamed⟩ := Option.ne_none_iff_exists'.mp hasId
      rcases property_kept faultless listed yNamed has visible with emits | reports | ⟨source, found, has⟩
      · exact .inl ⟨n, Nat.lt_succ_self n, y, before, .inl emits⟩
      · exact .inl ⟨n, Nat.lt_succ_self n, y, before, .inr reports⟩
      · obtain rfl := Option.some.inj (stepped.symm.trans found)
        obtain ⟨sourceId, found⟩ := Catalog.propertySource?_found stepped
        obtain ⟨listed, named⟩ := Catalog.find?_eq_some found
        exact .inr ⟨listed, by simp [named], has⟩

end Job

/-- A property that is not internal is declared or reported by some entry along the chain of sources,
unless the chain comes back to an entry. -/
theorem property_kept_along_sources {schemas : List EntitySchema} {attributes : List Attribute}
    {settings : Settings} {o : Output} {e : CatalogEntry} {id name : String}
    (done : generate schemas attributes settings = .ok o)
    (listed : e ∈ (Catalog.ofSchemas schemas).entries) (named : e.id? = some id)
    (present : e.schema.hasProperty name = true) (visible : name.toList.head? ≠ some '_') :
    (∃ n x, after? (Catalog.ofSchemas schemas).propertySource? n e = some x ∧
      (o.Emits (.ofListing schemas attributes settings) x name ∨ o.ReportsFor x name)) ∨
    ∃ m n x, m < n ∧ after? (Catalog.ofSchemas schemas).propertySource? m e = some x ∧
      after? (Catalog.ofSchemas schemas).propertySource? n e = some x := by
  obtain ⟨_, faultless, rfl⟩ := generate_eq_ok (Catalog.ne_nil_of_listed listed) done
  have closed : ∀ x ∈ (Catalog.ofSchemas schemas).entries, ∀ y,
      (Catalog.ofSchemas schemas).propertySource? x = some y →
        y ∈ (Catalog.ofSchemas schemas).entries := by
    intro x _ y found
    obtain ⟨sourceId, found⟩ := Catalog.propertySource?_found found
    exact (Catalog.find?_eq_some found).1
  rcases chain_ends_or_repeats closed listed with ⟨n, _, x, reached, ended⟩ | repeats
  · refine .inl ?_
    rcases Job.property_kept_until faultless listed named present visible reached with
      ⟨k, _, y, before, found⟩ | ⟨last, hasId, has⟩
    · exact ⟨k, y, before, found⟩
    · obtain ⟨xid, xNamed⟩ := Option.ne_none_iff_exists'.mp hasId
      rcases Job.property_kept faultless last xNamed has visible with emits | reports | ⟨y, found, _⟩
      · exact ⟨n, x, reached, .inl emits⟩
      · exact ⟨n, x, reached, .inr reports⟩
      · cases ended.symm.trans found
  · exact .inr repeats

theorem layered_id_kept : ∃ o e, generate layered [] .standard = .ok o ∧
    e ∈ (Catalog.ofSchemas layered).entries ∧ e.id? = some "Shot" ∧
    e.schema.hasProperty "id" = true ∧ "id".toList.head? ≠ some '_' ∧
    ((∃ n x, after? (Catalog.ofSchemas layered).propertySource? n e = some x ∧
      (o.Emits (.ofListing layered [] .standard) x "id" ∨ o.ReportsFor x "id")) ∨
    ∃ m n x, m < n ∧ after? (Catalog.ofSchemas layered).propertySource? m e = some x ∧
      after? (Catalog.ofSchemas layered).propertySource? n e = some x) := by
  have shot := List.mem_of_getElem? (show (Catalog.ofSchemas layered).entries[2]? = some _ from rfl)
  exact ⟨_, _, rfl, shot, rfl, rfl, by decide,
    property_kept_along_sources rfl shot rfl rfl (by decide)⟩

end EntityTypings
