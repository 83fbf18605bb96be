import EntityTypings.Proofs.Generation.Declarations
import EntityTypings.Proofs.TypeScript.InterfaceText
import Mathlib.Data.List.Induction
import Mathlib.Data.List.Sort

/-!
# The union of the subtypes and what interfaces extend

The union that bounds the parameter of the typed context is made from the listing, and the clauses that
instantiate the parameter from one schema each. `union_agrees_with_extends` shows that they agree: the union has
the ids of the interfaces that extend the typed context, each where it first occurs.
-/

namespace EntityTypings

open TypeScript

/-! ### First occurrences -/

/-- The names of a list, each once, in the order in which they first occur there. -/
structure FirstOccurrences (names listed : List String) : Prop where
  distinct : names.Nodup
  mem_iff : ∀ name, name ∈ names ↔ name ∈ listed
  ordered : names.Pairwise fun a b => listed.idxOf a < listed.idxOf b

theorem eraseDups_concat (listed : List String) (name : String) : (listed ++ [name]).eraseDups =
    if name ∈ listed then listed.eraseDups else listed.eraseDups ++ [name] := by
  rw [List.eraseDups_append]
  by_cases again : name ∈ listed <;> simp [List.removeAll, again, List.eraseDups_cons]

theorem FirstOccurrences.eraseDups (listed : List String) : FirstOccurrences listed.eraseDups listed := by
  have mem_iff : ∀ name, name ∈ listed.eraseDups ↔ name ∈ listed := fun _ => List.mem_eraseDups
  suffices ordered : listed.eraseDups.Pairwise fun a b => listed.idxOf a < listed.idxOf b by
    refine ⟨ordered.imp fun earlier same => ?_, mem_iff, ordered⟩
    rw [same] at earlier
    exact Nat.lt_irrefl _ earlier
  clear mem_iff
  -- From the right, since what is appended moves no first occurrence.
  induction listed using List.reverseRecOn with
  | nil => exact List.Pairwise.nil
  | append_singleton earlier name ih =>
    have kept : earlier.eraseDups.Pairwise fun a b =>
        (earlier ++ [name]).idxOf a < (earlier ++ [name]).idxOf b := by
      refine ih.imp_of_mem fun left right before => ?_
      rw [List.idxOf_append_of_mem (List.mem_eraseDups.mp left),
        List.idxOf_append_of_mem (List.mem_eraseDups.mp right)]
      exact before
    rw [eraseDups_concat]
    split
    · exact kept
    next new =>
      refine List.pairwise_append.mpr ⟨kept, List.pairwise_singleton _ _, fun other listed last same => ?_⟩
      obtain rfl := List.mem_singleton.mp same
      have member := List.mem_eraseDups.mp listed
      have bound := List.idxOf_lt_length_of_mem member
      rw [List.idxOf_append_of_mem member, List.idxOf_append_of_notMem new]
      omega

theorem FirstOccurrences.unique {names names' listed : List String} (first : FirstOccurrences names listed)
    (first' : FirstOccurrences names' listed) : names = names' := by
  have irreflexive : Std.Irrefl fun a b => listed.idxOf a < listed.idxOf b := ⟨fun _ => Nat.lt_irrefl _⟩
  have antisymmetric : Std.Antisymm fun a b => listed.idxOf a < listed.idxOf b :=
    ⟨fun _ _ before behind => absurd before (Nat.lt_asymm behind)⟩
  refine first.ordered.eq_of_mem_iff first'.ordered fun name => ?_
  rw [first.mem_iff, first'.mem_iff]

theorem FirstOccurrences.eq_nil_iff {names listed : List String} (first : FirstOccurrences names listed) :
    names = [] ↔ listed = [] := by
  simp only [List.eq_nil_iff_forall_not_mem, first.mem_iff]

namespace TypeScript

/-! ### Texts -/

theorem Declaration.render_subtypeUnion (ids : List String) : (Declaration.subtypeUnion ids).render =
    "export type TypedContextSubtype = " ++ (if ids = [] then "never" else " | ".intercalate (ids.map quote)) ++
      ";\n" := by
  have members : (TypeExpr.union (ids.map .literal)).render =
      if ids = [] then "never" else " | ".intercalate (ids.map quote) := by
    cases ids with
    | nil => rfl
    | cons id rest =>
      rw [List.map_cons, TypeExpr.render, TypeExpr.renderEach_eq_map, ← List.map_cons, List.map_map,
        if_neg (List.cons_ne_nil _ _)]
      refine congrArg _ (List.map_congr_left fun other _ => ?_)
      rw [Function.comp_apply, TypeExpr.render]
  rw [← members]
  rfl

theorem union_literals_eq_never {ids : List String} :
    (TypeExpr.union (ids.map .literal)).render = "never" ↔ ids = [] := by
  cases ids with
  | nil => exact ⟨fun _ => rfl, fun _ => rfl⟩
  | cons id rest =>
    have quoted : (TypeExpr.union ((id :: rest).map .literal)).render.toList.head? = some '"' := by
      rw [List.map_cons, TypeExpr.render, TypeExpr.renderEach, String.toList_intercalate, List.map_cons]
      cases (TypeExpr.renderEach (rest.map .literal)).map String.toList <;> simp [TypeExpr.render, quote]
    refine ⟨fun never => ?_, fun none => absurd none (List.cons_ne_nil _ _)⟩
    rw [never] at quoted
    exact absurd quoted (by decide)

/-- The ids of the declared interfaces that extend the typed context. -/
def specialisations (declarations : List Declaration) : List String :=
  declarations.filterMap fun
    | .interface i => if .typedContext ∈ i.parents then some i.id else none
    | .subtypeUnion _ => none
    | .entityTypeMap _ => none

end TypeScript

namespace Job

variable {j : Job}

theorem specialisations_declarations (faultless : j.Faultless) :
    specialisations j.declarations = j.catalog.aliasIds := by
  have registry : specialisations (if j.settings.emitEntityTypeMap ∧ j.interfaces.map Interface.id ≠ [] then
      [.entityTypeMap (j.interfaces.map Interface.id).eraseDups] else []) = [] := by
    split <;> rfl
  have union : specialisations (if j.catalog.typedContext?.isSome then
      [.subtypeUnion (subtypes j.catalog)] else []) = [] := by
    split <;> rfl
  unfold specialisations at registry union ⊢
  rw [declarations, List.filterMap_append, List.filterMap_append, registry, union, List.append_nil,
    List.append_nil, List.filterMap_map, Job.interfaces, List.filterMap_filterMap, Catalog.aliasIds,
    List.filterMap_filter]
  refine List.filterMap_congr fun e listed => ?_
  cases named : e.id? with
  | none => simp [interface?, named]
  | some id =>
    rw [interface?_of_faultless named (faultless e listed id named), Option.bind_some]
    exact if_congr Catalog.isAlias_iff.symm rfl rfl

/-- Interfaces are declared with what their entries extend. -/
theorem interface_declared_iff (faultless : j.Faultless) {id : String} {parents : List Parent} :
    (∃ i, .interface i ∈ j.declarations ∧ i.id = id ∧ i.parents = parents) ↔
      ∃ e ∈ j.catalog.entries, e.id? = some id ∧ e.parents = parents := by
  simp only [mem_declarations_interface, mem_interfaces faultless]
  constructor
  · rintro ⟨_, ⟨e, listed, other, named, rfl⟩, rfl, rfl⟩
    exact ⟨e, listed, named, rfl⟩
  · rintro ⟨e, listed, named, rfl⟩
    exact ⟨_, ⟨e, listed, id, named, rfl⟩, rfl, rfl⟩

theorem id_mem_of_declared {i : Interface} (declared : .interface i ∈ j.declarations) :
    i.id ∈ j.interfaces.map Interface.id :=
  List.mem_map_of_mem (mem_declarations_interface.mp declared)

end Job

variable {schemas : List EntitySchema} {attributes : List Attribute} {settings : Settings} {o : Output}

/-- Schemas are declared with what they extend, each by the text of its interface. The union of the subtypes is declared exactly if the generic
typed context is. Its members are the ids that extends clauses instantiate the typed context with, each where it
first occurs, and it is empty if there are none. -/
theorem union_agrees_with_extends (done : generate schemas attributes settings = .ok o) :
    ∃ declarations, declarations = (Job.ofListing schemas attributes settings).declarations ∧
      o.code = (if schemas = [] then "" else (settings.banner.map Banner.render).getD "") ++
        "\n".intercalate (declarations.map Declaration.render) ∧
      (∀ id parents, (∃ i, .interface i ∈ declarations ∧ i.id = id ∧ i.parents = parents) ↔
        ∃ e ∈ (Catalog.ofSchemas schemas).entries, e.id? = some id ∧ e.parents = parents) ∧
      (∀ i, .interface i ∈ declarations → i.id ∈ o.interfaces ∧
        (i.id = Dialect.typedContext →
          declarationName i.id = "TypedContext<K extends TypedContextSubtype = TypedContextSubtype>") ∧
        (.typedContext ∈ i.parents → ∃ before after, extendsClause i.id i.parents = before ++
          ("Omit<TypedContext<" ++ (TypeExpr.literal i.id).render ++
            ">, \"__entity_type__\" | \"__permissions\">") ++ after) ∧
        i.render = "export interface " ++
          (if i.id = "TypedContext" then "TypedContext<K extends TypedContextSubtype = TypedContextSubtype>"
            else i.id) ++
          (if i.parents = [] then "" else " extends " ++ ", ".intercalate (i.parents.map fun parent =>
            "Omit<" ++ parentName i.id parent ++ ", \"__entity_type__\" | \"__permissions\">")) ++ " \x7b\n" ++
          String.join (i.members.map fun m => m.doc.getD "" ++ ("  " ++ (if m.readOnly then "readonly " else "") ++
            propertyKey m.name ++ (if m.required then "" else "?") ++ ": " ++ m.type.render ++ ";\n")) ++ "\x7d\n") ∧
      ((∃ ids, .subtypeUnion ids ∈ declarations) ↔
        ∃ i, .interface i ∈ declarations ∧ i.id = Dialect.typedContext) ∧
      ∀ ids, .subtypeUnion ids ∈ declarations →
        (Declaration.subtypeUnion ids).render = "export type TypedContextSubtype = " ++
          (if ids = [] then "never" else " | ".intercalate (ids.map quote)) ++ ";\n" ∧
        FirstOccurrences ids (specialisations declarations) ∧ (∀ id ∈ ids, id ∈ o.interfaces) ∧
        specialisations declarations = (Catalog.ofSchemas schemas).aliasIds ∧
        ((TypeExpr.union (ids.map .literal)).render = "never" ↔ specialisations declarations = []) := by
  obtain ⟨_, faultless, listed, _⟩ := generate_eq_ok_declarations done
  have interfaces : (Job.ofListing schemas attributes settings).interfaces.map Interface.id = o.interfaces := by
    rw [Job.interfaces_ids faultless, listed]
  have aliases := Job.specialisations_declarations faultless
  refine ⟨_, rfl, generate_eq_ok_code done, fun id parents => Job.interface_declared_iff faultless,
    fun i declared => ⟨interfaces ▸ Job.id_mem_of_declared declared, ?_, ?_, i.render_eq⟩, ?_, ?_⟩
  · intro typed
    rw [typed]
    rfl
  · exact extendsClause_typedContext
  · have ids : Dialect.typedContext ∈ listedIds schemas ↔
        ∃ i ∈ (Job.ofListing schemas attributes settings).interfaces, i.id = Dialect.typedContext := by
      rw [← Job.interfaces_ids faultless]
      exact List.mem_map
    simp only [Job.mem_declarations_union, Job.mem_declarations_interface]
    rw [← ids, ← Catalog.typedContext?_isSome]
    exact ⟨fun ⟨_, found, _⟩ => found, fun found => ⟨_, found, rfl⟩⟩
  · intro ids declared
    obtain ⟨_, rfl⟩ := Job.mem_declarations_union.mp declared
    have first : FirstOccurrences (subtypes (.ofSchemas schemas))
        (specialisations (Job.ofListing schemas attributes settings).declarations) := by
      rw [aliases]
      exact .eraseDups _
    refine ⟨Declaration.render_subtypeUnion _, first, fun id member => ?_, aliases,
      union_literals_eq_never.trans first.eq_nil_iff⟩
    have specialised := (first.mem_iff id).mp member
    rw [aliases] at specialised
    obtain ⟨e, entry, named⟩ := List.mem_filterMap.mp specialised
    obtain ⟨i, declared, rfl, _⟩ :=
      (Job.interface_declared_iff faultless).mpr ⟨e, (List.mem_filter.mp entry).1, named, rfl⟩
    exact interfaces ▸ Job.id_mem_of_declared declared

/-- Two schemas with one id, of which the second is an alias, behind another alias. -/
def repeatedAlias : List EntitySchema :=
  [EntitySchema.named "TypedContext", EntitySchema.named "Shot",
    { EntitySchema.named "Asset" with aliasFor := some (.entity "Task" none) },
    { EntitySchema.named "Shot" with aliasFor := some (.bare "Task") },
    { EntitySchema.named "Asset" with aliasFor := some (.bare "Task") }]

theorem repeated_union_agrees : ∃ o declarations, generate repeatedAlias [] .standard = .ok o ∧
    declarations = (Job.ofListing repeatedAlias [] .standard).declarations ∧
    specialisations declarations = ["Asset", "Shot", "Asset"] ∧
    .subtypeUnion ["Asset", "Shot"] ∈ declarations ∧
    FirstOccurrences ["Asset", "Shot"] (specialisations declarations) := by
  have done : generate repeatedAlias [] .standard = .ok _ := rfl
  obtain ⟨_, rfl, _, _, _, _, unions⟩ := union_agrees_with_extends done
  have declared : Declaration.subtypeUnion ["Asset", "Shot"] ∈
      (Job.ofListing repeatedAlias [] .standard).declarations := Job.mem_declarations_union.mpr ⟨rfl, rfl⟩
  obtain ⟨_, first, _, aliases, _⟩ := unions _ declared
  exact ⟨_, _, done, rfl, aliases, declared, first⟩

end EntityTypings
