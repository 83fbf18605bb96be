import EntityTypings.Proofs.Generation.Comparison
import EntityTypings.Proofs.Generation.Declarations
import EntityTypings.Proofs.TypeScript.Narrowing

/-!
# What attributes have a part in

Attributes give the narrowed member of an alias its type and enter nothing else: `Job.declarations_renarrowed`.
There only the keys and value types count that apply to the alias, by which `generate_attributes` compares the
outputs for two lists of attributes.
-/

namespace EntityTypings

open TypeScript

namespace TypeScript

/-- The member, with another type if it is the narrowed one. -/
def Member.retyped (type : TypeExpr) (m : Member) : Member :=
  if m.name = Dialect.customAttributes then { m with type } else m

/-- The interface with attributes narrowed anew, if it specialises the typed context. -/
def Interface.renarrowed (n : Narrowing) (i : Interface) : Interface :=
  if .typedContext ∈ i.parents then { i with members := i.members.map (Member.retyped (n.fieldType i.id)) }
  else i

def Declaration.renarrowed (n : Narrowing) : Declaration → Declaration
  | .interface i => .interface (i.renarrowed n)
  | .subtypeUnion ids => .subtypeUnion ids
  | .entityTypeMap ids => .entityTypeMap ids

theorem Interface.renarrowed_id (n : Narrowing) (i : Interface) : (i.renarrowed n).id = i.id := by
  unfold renarrowed
  split <;> rfl

theorem Member.retyped_of_ne {type : TypeExpr} {m : Member} (other : m.name ≠ Dialect.customAttributes) :
    m.retyped type = m := if_neg other

end TypeScript

variable {j : Job} {attributes attributes' : List Attribute} {settings : Settings} {schemas : List EntitySchema}
  {e : CatalogEntry} {id : String}

namespace Job

def withAttributes (j : Job) (attributes : List Attribute) : Job := { j with attributes }

/-! ### Interfaces of entries -/

theorem member?_name {s : EntitySchema} {entry : String × Property} {m : Member}
    (made : j.member? id s entry = some m) : m.name = entry.1 := by
  obtain ⟨_, _, rfl⟩ := member?_eq_some.mp made
  rfl

theorem own_name_of_alias {m : Member} (specialises : e.isAlias = true)
    (own : m ∈ (j.catalog.ownProperties e).filterMap (j.member? id e.schema)) :
    m.name ≠ Dialect.customAttributes := by
  obtain ⟨entry, listed, made⟩ := List.mem_filterMap.mp own
  obtain ⟨_, _, _, visible⟩ := Catalog.mem_ownProperties.mp listed
  rw [member?_name made]
  exact fun same => visible ⟨specialises, same⟩

theorem addedMembers_of_alias (specialises : e.isAlias = true) (attributes : List Attribute) :
    (j.addedMembers id e).map (Member.retyped ((j.withAttributes attributes).narrowing.fieldType id)) =
      (j.withAttributes attributes).addedMembers id e := by
  unfold addedMembers
  rw [specialises]
  rfl

theorem interface?_renarrowed (faultless : j.Faultless) (listed : e ∈ j.catalog.entries)
    (attributes : List Attribute) :
    (j.withAttributes attributes).interface? e =
      (j.interface? e).map (Interface.renarrowed (j.withAttributes attributes).narrowing) := by
  cases named : e.id? with
  | none => simp [interface?, named]
  | some id =>
    have sound := faultless e listed id named
    rw [interface?_of_faultless (j := j.withAttributes attributes) named sound,
      interface?_of_faultless named sound, Option.map_some, Interface.renarrowed]
    have own : (j.catalog.ownProperties e).filterMap ((j.withAttributes attributes).member? id e.schema) =
      (j.catalog.ownProperties e).filterMap (j.member? id e.schema) := rfl
    by_cases specialises : e.isAlias = true
    · have kept : ((j.catalog.ownProperties e).filterMap (j.member? id e.schema)).map
          (Member.retyped ((j.withAttributes attributes).narrowing.fieldType id)) =
          (j.catalog.ownProperties e).filterMap (j.member? id e.schema) := by
        refine (List.map_congr_left fun m member => ?_).trans (List.map_id _)
        exact Member.retyped_of_ne (own_name_of_alias specialises member)
      rw [if_pos (Catalog.isAlias_iff.mp specialises), List.map_append, kept,
        addedMembers_of_alias specialises]
      rfl
    · have plain : j.addedMembers id e = (j.withAttributes attributes).addedMembers id e := by
        unfold addedMembers
        rw [if_neg specialises, if_neg specialises]
      rw [if_neg (mt Catalog.isAlias_iff.mpr specialises), plain]
      rfl

theorem interface?_of_offers (listed : e ∈ j.catalog.entries)
    (same : ∀ id ∈ j.catalog.aliasIds, ∀ pair,
      Attribute.Offers j.attributes id pair ↔ Attribute.Offers attributes id pair) :
    (j.withAttributes attributes).interface? e = j.interface? e := by
  unfold interface?
  cases named : e.id? with
  | none => rfl
  | some id =>
    have members : (j.withAttributes attributes).ownMembers id e = j.ownMembers id e :=
      mapProperties_congr rfl
    have added : (j.withAttributes attributes).addedMembers id e = j.addedMembers id e := by
      unfold addedMembers
      by_cases specialises : e.isAlias = true
      · have offered : id ∈ j.catalog.aliasIds :=
          List.mem_filterMap.mpr ⟨e, List.mem_filter.mpr ⟨listed, specialises⟩, named⟩
        have pairs : j.narrowing.pairs id = (j.withAttributes attributes).narrowing.pairs id :=
          Narrowing.pairs_ext rfl (same id offered)
        have field : j.narrowing.fieldType id = (j.withAttributes attributes).narrowing.fieldType id :=
          Narrowing.fieldType_congr rfl pairs
        rw [field]
      · rw [if_neg specialises, if_neg specialises]
    simp only [Option.bind_eq_bind, Option.bind_some, members, added]

/-! ### Declarations -/

theorem declarations_renarrowed (faultless : j.Faultless) (attributes : List Attribute) :
    (j.withAttributes attributes).declarations =
      j.declarations.map (Declaration.renarrowed (j.withAttributes attributes).narrowing) := by
  have changed : (j.withAttributes attributes).declarations = j.declarations.map
      (Declaration.mapInterface (Interface.renarrowed (j.withAttributes attributes).narrowing)) :=
    declarations_mapped rfl rfl (fun e listed => interface?_renarrowed faultless listed attributes)
      fun i => i.renarrowed_id _
  rw [changed]
  exact List.map_congr_left fun d _ => by cases d <;> rfl

theorem output_of_offers (same : ∀ id ∈ j.catalog.aliasIds, ∀ pair,
    Attribute.Offers j.attributes id pair ↔ Attribute.Offers attributes id pair) :
    (j.withAttributes attributes).output = j.output := by
  have interfaces : (j.withAttributes attributes).interfaces = j.interfaces :=
    List.filterMap_congr fun e listed => interface?_of_offers listed same
  have code : (j.withAttributes attributes).output.code = j.output.code := by
    rw [output_code, output_code, blocks, blocks, interfaces]
    rfl
  have errors : (j.withAttributes attributes).output.errors = j.output.errors := errors_same rfl
  have ids : (j.withAttributes attributes).output.interfaces = j.output.interfaces := by
    rw [output_interfaces, output_interfaces, interfaces]
  exact Output.mk.injEq .. ▸ ⟨code, errors, ids⟩

end Job

/-- Two lists of attributes fail alike or give the same soft errors and ids, and the same declarations but for the
types of narrowed members. They give the same output if the same keys and value types apply to each alias. -/
theorem generate_attributes (schemas : List EntitySchema) (attributes attributes' : List Attribute)
    (settings : Settings) :
    (∃ failure, generate schemas attributes settings = .error failure ∧
      generate schemas attributes' settings = .error failure) ∨
    ∃ o o', generate schemas attributes settings = .ok o ∧ generate schemas attributes' settings = .ok o' ∧
      o.errors = o'.errors ∧ o.interfaces = o'.interfaces ∧
      (∃ opening declarations narrowing,
        declarations = (Job.ofListing schemas attributes settings).declarations ∧
        narrowing = (Job.ofListing schemas attributes' settings).narrowing ∧
        o.code = opening ++ "\n".intercalate (declarations.map Declaration.render) ∧
        o'.code = opening ++
          "\n".intercalate ((declarations.map (Declaration.renarrowed narrowing)).map Declaration.render)) ∧
      ((∀ id ∈ (Catalog.ofSchemas schemas).aliasIds, ∀ pair,
        Attribute.Offers attributes id pair ↔ Attribute.Offers attributes' id pair) → o = o') := by
  rcases generate_compared schemas attributes attributes' (Eq.refl settings.strict) with
    failed | ⟨o, o', done, done', errors, interfaces⟩
  · exact .inl failed
  refine .inr ⟨o, o', done, done', errors, interfaces, ?_⟩
  by_cases nonempty : schemas = []
  · subst nonempty
    obtain rfl : o = o' := Except.ok.inj (done.symm.trans done')
    obtain rfl : Output.empty.pushError .noSchemas = o := Except.ok.inj done
    refine ⟨⟨"", _, _, rfl, rfl, ?_, ?_⟩, fun _ => rfl⟩
    · rw [Job.declarations_nil]
      rfl
    · rw [Job.declarations_nil]
      rfl
  · obtain ⟨_, faultless, rfl⟩ := generate_eq_ok nonempty done
    obtain ⟨_, _, rfl⟩ := generate_eq_ok nonempty done'
    refine ⟨⟨_, _, _, rfl, rfl, Job.output_code_declarations _, ?_⟩, fun same => ?_⟩
    · have renarrowed := Job.declarations_renarrowed faultless attributes'
      rw [Job.output_code_declarations]
      exact congrArg (fun ds => _ ++ "\n".intercalate (ds.map Declaration.render)) renarrowed
    · have output : ((Job.ofListing schemas attributes settings).withAttributes attributes').output =
          (Job.ofListing schemas attributes settings).output := Job.output_of_offers same
      exact output.symm

/-- Neither a repeated attribute nor one for another entity makes a difference to an alias. -/
theorem layered_offers :
    let once : List Attribute := [.everywhere "fps" "number", .forEntity "take" "Asset" "text"]
    let twice : List Attribute := [.forEntity "fps" "Shot" "number", .everywhere "fps" "number"]
    (∀ id ∈ (Catalog.ofSchemas layered).aliasIds, ∀ pair,
      Attribute.Offers once id pair ↔ Attribute.Offers twice id pair) ∧
    ∃ o, generate layered once .standard = .ok o ∧ generate layered twice .standard = .ok o := by
  intro once twice
  have same : ∀ id ∈ (Catalog.ofSchemas layered).aliasIds, ∀ pair,
      Attribute.Offers once id pair ↔ Attribute.Offers twice id pair := by
    intro id listed pair
    have aliases : (Catalog.ofSchemas layered).aliasIds = ["Shot"] := rfl
    rw [aliases] at listed
    obtain rfl := List.mem_singleton.mp listed
    simp [Attribute.Offers, once, twice, Attribute.everywhere, Attribute.forEntity, Attribute.appliesTo,
      Attribute.pair, Attribute.kind]
  refine ⟨same, ?_⟩
  rcases generate_attributes layered once twice .standard with ⟨_, failed, _⟩ | ⟨o, o', done, done', _, _, _, equal⟩
  · cases failed
  · obtain rfl := equal same
    exact ⟨o, done, done'⟩

end EntityTypings
