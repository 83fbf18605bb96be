import EntityTypings.Proofs.Generation.Declarations
import EntityTypings.Proofs.Schema.Consistency

/-!
# Declared names

The check of a listing keeps its ids apart from each other, not from the names of the declarations that stand
over the whole listing. `declared_names_distinct_iff` says which ids make a name be declared twice.
-/

namespace EntityTypings

open TypeScript

/-- At its start or behind a blank line a text declares a name. -/
def Introduces (text name : String) : Prop :=
  ∃ before keyword mark after, separator before = "" ∧ keyword ∈ ["interface ", "type "] ∧
    mark ∈ [" ", "<"] ∧ text = before ++ ("export " ++ (keyword ++ (name ++ (mark ++ after))))

theorem separator_append {before s : String} (start : separator before = "") (blank : separator s = "") :
    separator (before ++ s) = "" := by
  rcases separator_eq_empty.mp blank with rfl | blank
  · rwa [String.append_empty]
  · exact separator_eq_empty.mpr (.inr (endsBlank_append before blank))

/-- What a block introduces is introduced by the code that it is a block of. -/
theorem Introduces.within {block name before : String} (introduced : Introduces block name)
    (start : separator before = "") (after : String) : Introduces (before ++ block ++ after) name := by
  obtain ⟨inner, keyword, mark, rest, blank, keywords, marks, rfl⟩ := introduced
  refine ⟨before ++ inner, keyword, mark, rest ++ after, separator_append start blank, keywords, marks, ?_⟩
  simp only [String.append_assoc]

namespace TypeScript

/-- The text behind the id of a declared interface starts with a parameter list or with a blank. -/
theorem header_mark (id : String) (parents : List Parent) (rest : String) : ∃ mark ∈ [" ", "<"], ∃ after,
    declarationName id ++ (extendsClause id parents ++ (" \x7b\n" ++ rest)) = id ++ (mark ++ after) := by
  unfold declarationName
  split
  · refine ⟨"<", by decide, Dialect.typeParameter ++ (" extends " ++ (Dialect.subtypeUnion ++ (" = " ++
      (Dialect.subtypeUnion ++ (">" ++ (extendsClause id parents ++ (" \x7b\n" ++ rest))))))), ?_⟩
    simp only [String.append_assoc]
  · cases parents with
    | nil =>
      refine ⟨" ", by decide, "\x7b\n" ++ rest, ?_⟩
      rw [extendsClause, String.empty_append, show " \x7b\n" = " " ++ "\x7b\n" from rfl, String.append_assoc]
    | cons parent others =>
      refine ⟨" ", by decide, "extends " ++ (", ".intercalate ((parent :: others).map fun p =>
        (parentType id p).render) ++ (" \x7b\n" ++ rest)), ?_⟩
      unfold extendsClause
      rw [show " extends " = " " ++ "extends " from rfl]
      simp only [String.append_assoc]

theorem Declaration.introduces {d : Declaration} {name : String} (declared : name ∈ d.names) :
    Introduces d.render name := by
  cases d with
  | interface i =>
    obtain rfl := List.mem_singleton.mp declared
    obtain ⟨mark, marks, after, header⟩ := header_mark i.id i.parents (renderMembers i.members ++ "\x7d\n")
    refine ⟨"", "interface ", mark, after, rfl, by decide, marks, ?_⟩
    unfold render Interface.render
    rw [← header, show "export interface " = "export " ++ "interface " from rfl, String.empty_append]
    simp only [String.append_assoc]
  | subtypeUnion ids =>
    obtain rfl := List.mem_singleton.mp declared
    refine ⟨"", "type ", " ", "= " ++ ((TypeExpr.union (ids.map .literal)).render ++ ";\n"), rfl, by decide,
      by decide, ?_⟩
    unfold render
    rw [show "export type " = "export " ++ "type " from rfl, show " = " = " " ++ "= " from rfl,
      String.empty_append]
    simp only [String.append_assoc]
  | entityTypeMap ids =>
    unfold render
    rcases List.mem_cons.mp declared with rfl | declared
    · refine ⟨"", "interface ", " ", "\x7b\n" ++ (String.join (ids.map mapEntry) ++
        "\x7d\n\nexport type EntityType = keyof EntityTypeMap;\n"), rfl, by decide, by decide, ?_⟩
      rw [show "export interface EntityTypeMap \x7b\n" =
        "export " ++ ("interface " ++ ("EntityTypeMap" ++ (" " ++ "\x7b\n"))) from rfl, String.empty_append]
      simp only [String.append_assoc]
    · obtain rfl := List.mem_singleton.mp declared
      refine ⟨"export interface EntityTypeMap \x7b\n" ++ (String.join (ids.map mapEntry) ++ "\x7d\n\n"),
        "type ", " ", "= keyof EntityTypeMap;\n", ?_, by decide, by decide, ?_⟩
      · exact separator_eq_empty.mpr (.inr (endsBlank_append _ (endsBlank_append _ (by decide))))
      · rw [show "\x7d\n\nexport type EntityType = keyof EntityTypeMap;\n" = "\x7d\n\n" ++ ("export " ++
          ("type " ++ ("EntityType" ++ (" " ++ "= keyof EntityTypeMap;\n")))) from rfl]
        simp only [String.append_assoc]

end TypeScript

namespace Job

variable {j : Job}

/-- The names that a pass declares, in the order of its declarations. -/
def declaredNames (j : Job) : List String := j.declarations.flatMap Declaration.names

theorem introduces_of_mem {name : String} (declared : name ∈ j.declaredNames) {opening : String}
    (start : separator opening = "") :
    Introduces (opening ++ "\n".intercalate (j.declarations.map Declaration.render)) name := by
  obtain ⟨d, listed, named⟩ := List.mem_flatMap.mp declared
  have ended : ∀ block ∈ j.declarations.map Declaration.render, EndsLine block := by
    intro block member
    obtain ⟨other, _, rfl⟩ := List.mem_map.mp member
    exact other.isBlock.ended
  obtain ⟨before, after, split, blank⟩ := mem_joined start ended (List.mem_map_of_mem listed)
  rw [split]
  exact (Declaration.introduces named).within blank after

/-- Without faults the declared names are the ids of the listing and those of the declarations behind the
interfaces. -/
theorem declaredNames_eq {schemas : List EntitySchema} {attributes : List Attribute} {settings : Settings}
    (faultless : (Job.ofListing schemas attributes settings).Faultless) :
    (Job.ofListing schemas attributes settings).declaredNames = listedIds schemas ++
      (if Dialect.typedContext ∈ listedIds schemas then [Dialect.subtypeUnion] else []) ++
      (if settings.emitEntityTypeMap ∧ listedIds schemas ≠ [] then ["EntityTypeMap", "EntityType"] else []) := by
  have interfaces : ((Job.ofListing schemas attributes settings).interfaces.map
      Declaration.interface).flatMap Declaration.names = listedIds schemas := by
    rw [List.flatMap_map, ← interfaces_ids faultless, List.map_eq_flatMap]
    rfl
  have union : (if (Catalog.ofSchemas schemas).typedContext?.isSome then
        [Declaration.subtypeUnion (subtypes (.ofSchemas schemas))] else []).flatMap Declaration.names =
      if Dialect.typedContext ∈ listedIds schemas then [Dialect.subtypeUnion] else [] := by
    by_cases found : Dialect.typedContext ∈ listedIds schemas <;>
      simp [Catalog.typedContext?_isSome, found, Declaration.names]
  have map : (if settings.emitEntityTypeMap ∧ listedIds schemas ≠ [] then
        [Declaration.entityTypeMap (listedIds schemas).eraseDups] else []).flatMap Declaration.names =
      if settings.emitEntityTypeMap ∧ listedIds schemas ≠ [] then ["EntityTypeMap", "EntityType"] else [] := by
    split <;> rfl
  rw [declaredNames, declarations, List.flatMap_append, List.flatMap_append, interfaces,
    interfaces_ids faultless, union, map]

end Job

/-! ### Names declared twice -/

/-- Some ids, and behind them names of which no two agree: it is the ids that clash with them, or none do. -/
theorem nodup_append_fixed {ids names : List String} (distinct : ids.Nodup) (fixed : names.Nodup) :
    (ids ++ names).Nodup ↔ ∀ name ∈ names, name ∉ ids := by
  rw [List.nodup_append]
  constructor
  · rintro ⟨_, _, apart⟩ name listed clash
    exact apart name clash name listed rfl
  · intro apart
    refine ⟨distinct, fixed, fun id member name listed same => ?_⟩
    exact apart name listed (same ▸ member)

/-- Where inconsistent listings are refused, no two interfaces have one name. The code is the banner and then each
declaration once, and each declaration introduces its names. All names are distinct exactly if no id is a name of a
declaration that stands behind the interfaces: of the union of the subtypes, if the listing has the typed context, and
of the entity type map and the type of its keys, if they are wanted. -/
theorem declared_names_distinct_iff {schemas : List EntitySchema} {attributes : List Attribute}
    {settings : Settings} {o : Output} (strict : settings.strict = true)
    (done : generate schemas attributes settings = .ok o) :
    o.interfaces = listedIds schemas ∧ o.interfaces.Nodup ∧
      o.code = (if schemas = [] then "" else (settings.banner.map Banner.render).getD "") ++
        "\n".intercalate ((Job.ofListing schemas attributes settings).declarations.map Declaration.render) ∧
      (∀ d ∈ (Job.ofListing schemas attributes settings).declarations, ∀ name ∈ d.names, Introduces d.render name) ∧
      (∀ name ∈ (Job.ofListing schemas attributes settings).declaredNames, Introduces o.code name) ∧
      ((Job.ofListing schemas attributes settings).declaredNames.Nodup ↔
        (Dialect.typedContext ∈ listedIds schemas → Dialect.subtypeUnion ∉ listedIds schemas) ∧
        (settings.emitEntityTypeMap = true →
          "EntityTypeMap" ∉ listedIds schemas ∧ "EntityType" ∉ listedIds schemas)) := by
  obtain ⟨accepted, faultless, interfaces, opening, start, code⟩ := generate_eq_ok_declarations done
  have distinct : (listedIds schemas).Nodup := (checkListing_eq_ok.mp (accepted strict)).distinct
  refine ⟨interfaces, interfaces ▸ distinct, generate_eq_ok_code done, fun _ _ _ => Declaration.introduces, ?_, ?_⟩
  · intro name declared
    rw [code]
    exact Job.introduces_of_mem declared start
  · have fixed : ((if Dialect.typedContext ∈ listedIds schemas then [Dialect.subtypeUnion] else []) ++
        (if settings.emitEntityTypeMap ∧ listedIds schemas ≠ [] then
          ["EntityTypeMap", "EntityType"] else [])).Nodup := by
      split <;> split <;> decide
    rw [Job.declaredNames_eq faultless, List.append_assoc, nodup_append_fixed distinct fixed,
      List.forall_mem_append]
    refine and_congr ?_ ?_
    · by_cases found : Dialect.typedContext ∈ listedIds schemas <;> simp [found]
    · -- Without ids there is no map, and nothing that its names could clash with.
      by_cases none : listedIds schemas = [] <;> by_cases wanted : settings.emitEntityTypeMap = true <;>
        simp [none, wanted]

theorem layered_names_distinct : ∃ o,
    generate layered [] { Settings.standard with strict := true } = .ok o ∧
    (Job.ofListing layered [] { Settings.standard with strict := true }).declaredNames.Nodup := by
  have done : generate layered [] { Settings.standard with strict := true } = .ok _ := rfl
  obtain ⟨_, _, _, _, _, distinct⟩ := declared_names_distinct_iff rfl done
  exact ⟨_, done, distinct.mpr ⟨fun _ => by decide, fun _ => by decide⟩⟩

/-- A consistent listing may have a schema with a name that the entity type map takes. -/
theorem map_name_declared_twice :
    checkListing [EntitySchema.named "EntityTypeMap"] = .ok () ∧
      ∃ o, generate [EntitySchema.named "EntityTypeMap"] [] { Settings.standard with strict := true } = .ok o ∧
        ¬(Job.ofListing [EntitySchema.named "EntityTypeMap"] []
          { Settings.standard with strict := true }).declaredNames.Nodup ∧
        o.code = "export interface EntityTypeMap \x7b\n" ++
          "  __entity_type__?: \"EntityTypeMap\";\n  __permissions?: Record<string, any>;\n\x7d\n\n" ++
          "export interface EntityTypeMap \x7b\n  EntityTypeMap: EntityTypeMap;\n\x7d\n\n" ++
          "export type EntityType = keyof EntityTypeMap;\n" :=
  ⟨rfl, _, rfl, by decide, by decide +kernel⟩

end EntityTypings
