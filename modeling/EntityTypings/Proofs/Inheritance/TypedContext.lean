import EntityTypings.Proofs.Generation.Subtypes

/-!
# Where the typed context is declared

Aliases extend the typed context whether or not the listing has it. The generic interface and the union
that bounds its parameter are both declared exactly if it does: `extended_generic_declared_iff`.
-/

namespace EntityTypings

open TypeScript

theorem Catalog.mem_subtypes {c : Catalog} {id : String} :
    id ∈ subtypes c ↔ ∃ e ∈ c.entries, e.isAlias = true ∧ e.id? = some id := by
  rw [subtypes, List.mem_eraseDups, aliasIds, List.mem_filterMap]
  simp only [List.mem_filter, and_assoc]

theorem Job.union_declared_iff {j : Job} : (∃ ids, .subtypeUnion ids ∈ j.declarations) ↔
    ∃ e, j.catalog.typedContext? = some e := by
  simp only [mem_declarations_union, exists_and_left, exists_eq, and_true, Option.isSome_iff_exists]

/-- The code is the banner and then the declarations of the pass. One of them is the interface of an alias, which
extends the typed context, and the alias is one of its subtypes. The typed context itself and the union of its subtypes
are declared exactly if the listing has it; strictness makes no difference. -/
theorem extended_generic_declared_iff {schemas : List EntitySchema} {attributes : List Attribute}
    {settings : Settings} {o : Output} {e : CatalogEntry} {id : String}
    (done : generate schemas attributes settings = .ok o)
    (listed : e ∈ (Catalog.ofSchemas schemas).entries) (named : e.id? = some id)
    (extending : .typedContext ∈ e.parents) :
    o.code = (settings.banner.map Banner.render).getD "" ++
        "\n".intercalate ((Job.ofListing schemas attributes settings).declarations.map Declaration.render) ∧
      (∃ i, .interface i ∈ (Job.ofListing schemas attributes settings).declarations ∧ o.Declares i ∧
        i.id = id ∧ .typedContext ∈ i.parents ∧
        ∃ before after, i.render = before ++ ("TypedContext<" ++ quote id ++ ">") ++ after) ∧
      id ∈ subtypes (.ofSchemas schemas) ∧
      (Dialect.typedContext ∈ o.interfaces ↔ Dialect.typedContext ∈ listedIds schemas) ∧
      ((∃ ids, .subtypeUnion ids ∈ (Job.ofListing schemas attributes settings).declarations) ↔
        Dialect.typedContext ∈ listedIds schemas) ∧
      ∀ ids, .subtypeUnion ids ∈ (Job.ofListing schemas attributes settings).declarations →
        ids = subtypes (.ofSchemas schemas) ∧ (Declaration.subtypeUnion ids).render =
          "export type TypedContextSubtype = " ++ (if ids = [] then "never" else " | ".intercalate (ids.map quote)) ++
            ";\n" := by
  obtain ⟨_, faultless, rfl⟩ := generate_eq_ok (Catalog.ne_nil_of_listed listed) done
  refine ⟨Job.output_code_declarations _, ?_, ?_, ?_, ?_, ?_⟩
  · have interface := Job.interface?_of_faultless named (faultless e listed id named)
    have declared := List.mem_filterMap.mpr ⟨e, listed, interface⟩
    exact ⟨_, Job.mem_declarations_interface.mpr declared, Job.output_declares listed interface, rfl, extending,
      Interface.render_extending extending⟩
  · exact Catalog.mem_subtypes.mpr ⟨e, listed, Catalog.isAlias_iff.mpr extending, named⟩
  · rw [Job.interfaces_of_faultless faultless, Catalog.entries_ids]
  · rw [Job.union_declared_iff]
    exact Catalog.found_iff_listed
  · intro ids declared
    exact ⟨(Job.mem_declarations_union.mp declared).2, Declaration.render_subtypeUnion ids⟩

theorem layered_generic_declared : ∃ o e ids,
    generate layered [] { Settings.standard with strict := true } = .ok o ∧
    e ∈ (Catalog.ofSchemas layered).entries ∧ e.id? = some "Shot" ∧ .typedContext ∈ e.parents ∧
    Dialect.typedContext ∈ o.interfaces ∧
    .subtypeUnion ids ∈ (Job.ofListing layered [] { Settings.standard with strict := true }).declarations ∧
    "Shot" ∈ ids := by
  have done : generate layered [] { Settings.standard with strict := true } = .ok _ := rfl
  have shot := List.mem_of_getElem? (show (Catalog.ofSchemas layered).entries[2]? = some _ from rfl)
  have extending : Parent.typedContext ∈ parentsIn layered layered[2] := by decide
  obtain ⟨_, _, subtype, generic, union, members⟩ := extended_generic_declared_iff done shot rfl extending
  obtain ⟨ids, declared⟩ := union.mpr (by decide)
  exact ⟨_, _, ids, done, shot, rfl, extending, generic.mpr (by decide), declared,
    (members ids declared).1 ▸ subtype⟩

/-- A listing of nothing but an alias. -/
def lonelyAlias : List EntitySchema :=
  [{ EntitySchema.named "Shot" with aliasFor := some (.bare "Task") }]

/-- A consistent listing may have an alias without the typed context. The alias extends it all the same. -/
theorem extended_generic_missing : checkListing lonelyAlias = .ok () ∧
    ∃ o e, generate lonelyAlias [] { Settings.standard with strict := true } = .ok o ∧
      e ∈ (Catalog.ofSchemas lonelyAlias).entries ∧ e.id? = some "Shot" ∧ .typedContext ∈ e.parents ∧
      o.code =
        "export interface Shot extends Omit<TypedContext<\"Shot\">, \"__entity_type__\" | \"__permissions\"> \x7b\n" ++
        "  custom_attributes?: Array<never>;\n  __entity_type__?: \"Shot\";\n" ++
        "  __permissions?: Record<string, any>;\n\x7d\n\n" ++
        "export interface EntityTypeMap \x7b\n  Shot: Shot;\n\x7d\n\nexport type EntityType = keyof EntityTypeMap;\n" ∧
      o.interfaces = ["Shot"] ∧ Dialect.typedContext ∉ o.interfaces ∧
      ∀ ids, .subtypeUnion ids ∉
        (Job.ofListing lonelyAlias [] { Settings.standard with strict := true }).declarations := by
  have shot := List.mem_of_getElem? (show (Catalog.ofSchemas lonelyAlias).entries[0]? = some _ from rfl)
  refine ⟨rfl, _, _, rfl, shot, rfl, by decide, by decide +kernel, rfl, by decide,
    fun ids declared => ?_⟩
  have found := (Job.mem_declarations_union.mp declared).1
  cases found

end EntityTypings
