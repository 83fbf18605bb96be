import EntityTypings.Proofs.Generation.Attributes
import EntityTypings.Proofs.TypeScript.References

/-!
# Custom attributes declared anew

An alias redeclares the custom attributes that it inherits from the typed context. The elements that the
redeclared list keeps are those of the inherited one unless items stand on a property that holds no list:
`element_agrees_iff`. The redeclared member may always be left out, whatever the inherited one says:
`redeclared_never_weaker_iff`.
-/

namespace EntityTypings

open TypeScript

namespace TypeScript

/-- Every narrowed member has the other fields of this element. -/
def Narrowing.Keeps (n : Narrowing) (element : String) : Prop :=
  ∀ pair, ∃ own, n.member pair =
    .intersection [(TypeExpr.reference element).without [keyField, valueField], own]

def Interface.Requires (i : Interface) (name : String) : Prop :=
  ∃ m ∈ i.members, m.name = name ∧ m.required = true

theorem Narrowing.keeps_iff {n : Narrowing} {element : String} :
    n.Keeps element ↔ n.element = some element := by
  constructor
  · intro kept
    obtain ⟨own, same⟩ := kept ("", .text)
    unfold member at same
    cases present : n.element with
    | none => simp [present] at same
    | some name =>
      rw [present] at same
      injection same with operands
      injection operands with omitted _
      injection omitted with _ arguments
      injection arguments with inherited _
      injection inherited with named
      rw [named]
  · intro present pair
    unfold member
    rw [present]
    exact ⟨_, rfl⟩

theorem Typing.listOfReferences_iff {p : Property} {target : String} :
    Typing p (.array (.reference target)) ↔ ∃ items, p.Holds items ∧ items.reference = some target := by
  constructor
  · intro typing
    -- a scalar refers to nothing, neither by itself nor as the item of a list
    have scalar {typeName : String} {type : TypeExpr} (known : ScalarName typeName type)
        (mentioned : target ∈ type.references) : False := by
      rw [known.references] at mentioned
      cases mentioned
    cases typing with
    | scalar _ _ known => exact (scalar known List.mem_cons_self).elim
    | references held referring => exact ⟨_, held, referring⟩
    | scalars _ _ _ known => exact (scalar known List.mem_cons_self).elim
  · rintro ⟨items, held, referring⟩
    exact .references held referring

end TypeScript

theorem Property.Holds.unique {p : Property} {items other : Items} (held : p.Holds items)
    (present : p.items = some other) : p.Holds other := by
  obtain rfl := Option.some.inj (held.items.symm.trans present)
  exact held

/-! ### The element that is kept -/

theorem Catalog.attributeElement?_eq {c : Catalog} {context : CatalogEntry} {p : Property}
    (found : c.typedContext? = some context)
    (declared : context.schema.properties.lookup Dialect.customAttributes = some p) :
    c.attributeElement? = p.items.bind Items.reference := by
  simp [attributeElement?, found, declared, Option.bind_eq_bind]

variable {schemas : List EntitySchema} {attributes : List Attribute} {settings : Settings} {o : Output}

/-- Where the typed context declares custom attributes, a list of references has its element kept by every
narrowed member. The converse holds exactly if items with a reference belong to a property that is a list
and has no reference of its own. -/
theorem element_agrees_iff {context : CatalogEntry} {p : Property} (site : PropertySite)
    (found : (Catalog.ofSchemas schemas).typedContext? = some context)
    (declared : context.schema.properties.lookup Dialect.customAttributes = some p) :
    (∀ element, mapProperty site p = .ok (.typed (.array (.reference element))) →
      (Catalog.ofSchemas schemas).attributeElement? = some element) ∧
    (∀ element, (Job.ofListing schemas attributes settings).narrowing.Keeps element ↔
      (Catalog.ofSchemas schemas).attributeElement? = some element) ∧
    ((∀ element, (Catalog.ofSchemas schemas).attributeElement? = some element ↔
        mapProperty site p = .ok (.typed (.array (.reference element)))) ↔
      ∀ items target, p.items = some items → items.reference = some target → p.Holds items) := by
  rw [Catalog.attributeElement?_eq found declared]
  simp only [mapProperty_eq_typed, Typing.listOfReferences_iff]
  have kept (element : String) (mapped : ∃ items, p.Holds items ∧ items.reference = some element) :
      p.items.bind Items.reference = some element := by
    obtain ⟨items, held, referring⟩ := mapped
    rw [held.items]
    exact referring
  refine ⟨kept, fun element => ?_, ?_, ?_⟩
  · rw [Narrowing.keeps_iff, ← Catalog.attributeElement?_eq found declared]
    rfl
  · intro agree items target present referring
    have inherited : p.items.bind Items.reference = some target := by
      rw [present]
      exact referring
    obtain ⟨held, holds, _⟩ := (agree target).mp inherited
    exact holds.unique present
  · intro lists element
    refine ⟨fun inherited => ?_, kept element⟩
    obtain ⟨items, present, referring⟩ := Option.bind_eq_some_iff.mp inherited
    exact ⟨items, lists items element present referring, referring⟩

/-- A typed context whose custom attributes are of a type given by name and have items, and an alias of it. -/
def attributedBy (typeName : String) : List EntitySchema :=
  [(EntitySchema.named "TypedContext").addProperty Dialect.customAttributes (.listOf typeName "Value"),
    { EntitySchema.named "Shot" with aliasFor := some (.bare "Task") }, .named "Value"]

theorem mapped_element_agrees :
    (Catalog.ofSchemas (attributedBy "mapped_array")).attributeElement? = some "Value" ↔
      mapProperty ⟨"TypedContext", "custom_attributes"⟩ (.listOf "mapped_array" "Value") =
        .ok (.typed (.array (.reference "Value"))) := by
  have agree := @element_agrees_iff (attributedBy "mapped_array") [] .standard _ (.listOf "mapped_array" "Value")
    ⟨"TypedContext", "custom_attributes"⟩ rfl rfl
  refine agree.2.2.mpr (fun items target present _ => ?_) "Value"
  exact ⟨rfl, ⟨_, .mappedArray, rfl, rfl, rfl⟩, present⟩

/-- The items of a property that is no list are kept all the same. -/
theorem stray_element_kept :
    (Catalog.ofSchemas (attributedBy "object")).attributeElement? = some "Value" ∧
      mapProperty ⟨"TypedContext", "custom_attributes"⟩ (.listOf "object" "Value") =
        .ok (.typed (.keyword .object)) :=
  ⟨rfl, rfl⟩

/-! ### The member that may be left out -/

/-- The line that declares a member without documentation which may be left out. -/
theorem Member.optional_line (name : String) (type : TypeExpr) :
    (Member.optional name type).line = "  " ++ propertyKey name ++ "?: " ++ type.render ++ ";\n" := by
  simp [Member.line, Member.optional, String.append_assoc]

namespace Job

variable {j : Job} {e : CatalogEntry} {id : String}

/-- An alias declares custom attributes once, among the members that do not come from properties. -/
theorem narrowed_of_alias (specialises : e.isAlias = true) :
    ((j.catalog.ownProperties e).filterMap (j.member? id e.schema) ++ j.addedMembers id e).filter
        (·.name = Dialect.customAttributes) =
      [.optional Dialect.customAttributes (j.narrowing.fieldType id)] := by
  have own : ((j.catalog.ownProperties e).filterMap (j.member? id e.schema)).filter
      (·.name = Dialect.customAttributes) = [] := by
    rw [List.filter_eq_nil_iff]
    intro m listed
    simpa using own_name_of_alias specialises listed
  rw [List.filter_append, own, List.nil_append, addedMembers, specialises]
  rfl

end Job

/-- An entry declares a property itself, and its type is known and it may not be left out. -/
def Catalog.DeclaresRequired (c : Catalog) (e : CatalogEntry) (name : String) : Prop :=
  e.schema.isRequired name = true ∧ ∃ p type, (name, p) ∈ c.ownProperties e ∧ Typing p type

/-- Members that do not come from properties may all be left out. -/
theorem Job.requires_iff {j : Job} {e : CatalogEntry} {id name : String} {parents : List Parent} :
    (Interface.mk id parents
      ((j.catalog.ownProperties e).filterMap (j.member? id e.schema) ++ j.addedMembers id e)).Requires name ↔
      j.catalog.DeclaresRequired e name := by
  constructor
  · rintro ⟨m, listed, named, required⟩
    rcases List.mem_append.mp listed with own | added
    · obtain ⟨⟨key, p⟩, entry, made⟩ := List.mem_filterMap.mp own
      obtain ⟨type, mapped, rfl⟩ := Job.member?_eq_some.mp made
      obtain rfl : key = name := named
      exact ⟨required, p, type, entry, mapProperty_eq_typed.mp mapped⟩
    · rcases Job.mem_addedMembers added with ⟨_, rfl⟩ | rfl | rfl <;> cases required
  · rintro ⟨required, p, type, own, typing⟩
    have made : j.member? id e.schema (name, p) = some (j.propertyMember e.schema name p type) :=
      Job.member?_eq_some.mpr ⟨type, mapProperty_eq_typed.mpr typing, rfl⟩
    exact ⟨_, List.mem_append_left _ (List.mem_filterMap.mpr ⟨_, own, made⟩), rfl, required⟩

theorem Catalog.not_declaresRequired_of_alias {c : Catalog} {e : CatalogEntry} (specialises : e.isAlias = true) :
    ¬c.DeclaresRequired e Dialect.customAttributes := by
  rintro ⟨_, p, _, own, _⟩
  obtain ⟨_, _, _, visible⟩ := Catalog.mem_ownProperties.mp own
  exact visible ⟨specialises, rfl⟩

/-- Each alias declares custom attributes once, and they may be left out. Hence none of them is weaker than
the inherited ones exactly if no typed context requires them or no alias is declared. -/
theorem redeclared_never_weaker_iff (done : generate schemas attributes settings = .ok o) :
    (∀ i ∈ (Job.ofListing schemas attributes settings).interfaces, .typedContext ∈ i.parents → o.Declares i ∧
      (i.members.filter (·.name = Dialect.customAttributes)).map Member.line =
        ["  custom_attributes?: " ++
          ((Job.ofListing schemas attributes settings).narrowing.fieldType i.id).render ++ ";\n"]) ∧
    (((∃ i ∈ (Job.ofListing schemas attributes settings).interfaces,
          i.id = Dialect.typedContext ∧ i.Requires Dialect.customAttributes) →
        ∀ i ∈ (Job.ofListing schemas attributes settings).interfaces, .typedContext ∈ i.parents →
          i.Requires Dialect.customAttributes) ↔
      (∀ e ∈ (Catalog.ofSchemas schemas).entries, e.id? = some Dialect.typedContext →
        ¬(Catalog.ofSchemas schemas).DeclaresRequired e Dialect.customAttributes) ∨
      (Catalog.ofSchemas schemas).aliasIds = []) := by
  obtain ⟨_, faultless, _⟩ := generate_eq_ok_declarations done
  have entry_of {i : Interface} := (Job.mem_interfaces faultless (i := i)).mp
  have interface_of {i : Interface} := (Job.mem_interfaces faultless (i := i)).mpr
  refine ⟨fun i declared extending => ?_, fun never => ?_, ?_⟩
  · obtain ⟨e, listed, id, named, rfl⟩ := entry_of declared
    obtain ⟨_, _, rfl⟩ := generate_eq_ok (Catalog.ne_nil_of_listed listed) done
    have interface := Job.interface?_of_faultless named (faultless e listed id named)
    refine ⟨Job.output_declares listed interface, ?_⟩
    rw [Job.narrowed_of_alias (Catalog.isAlias_iff.mpr extending), List.map_singleton, Member.optional_line]
    rfl
  · -- an alias that is declared would have to require what no alias requires
    apply Classical.or_iff_not_imp_right.mpr
    intro aliases e listed named required
    obtain ⟨id, aliased⟩ := List.exists_mem_of_ne_nil _ aliases
    obtain ⟨special, member, named'⟩ := List.mem_filterMap.mp aliased
    obtain ⟨listed', specialises⟩ := List.mem_filter.mp member
    have context := interface_of ⟨e, listed, _, named, rfl⟩
    have special_declared := interface_of ⟨special, listed', id, named', rfl⟩
    have weaker := never ⟨_, context, rfl, Job.requires_iff.mpr required⟩ _ special_declared
      (Catalog.isAlias_iff.mp specialises)
    exact Catalog.not_declaresRequired_of_alias specialises (Job.requires_iff.mp weaker)
  · rintro (free | none) ⟨context, declared, typed, required⟩ i special extending
    · obtain ⟨e, listed, id, named, rfl⟩ := entry_of declared
      obtain rfl : id = Dialect.typedContext := typed
      exact absurd (Job.requires_iff.mp required) (free e listed named)
    · obtain ⟨e, listed, id, named, rfl⟩ := entry_of special
      have aliased : id ∈ (Catalog.ofSchemas schemas).aliasIds :=
        List.mem_filterMap.mpr ⟨e, List.mem_filter.mpr ⟨listed, Catalog.isAlias_iff.mpr extending⟩, named⟩
      rw [none] at aliased
      cases aliased

/-- A typed context that requires its custom attributes, and an alias of it. -/
def attributesRequired : List EntitySchema :=
  [{ (EntitySchema.named "TypedContext").addProperty Dialect.customAttributes (.listOf "array" "Value") with
      required := [Dialect.customAttributes] },
    { EntitySchema.named "Shot" with aliasFor := some (.bare "Task") }, .named "Value"]

theorem required_attributes_redeclared : ∃ o i,
    generate attributesRequired [] { Settings.standard with strict := true } = .ok o ∧ i.id = "Shot" ∧
      o.Declares i ∧ (i.members.filter (·.name = Dialect.customAttributes)).map Member.line =
        ["  custom_attributes?: Array<never>;\n"] := by
  have done : generate attributesRequired [] { Settings.standard with strict := true } = .ok _ := rfl
  have shot := List.mem_of_getElem?
    (show (Job.ofListing attributesRequired [] { Settings.standard with strict := true }).interfaces[1]? = some _ from rfl)
  obtain ⟨declared, lines⟩ := (redeclared_never_weaker_iff done).1 _ shot (List.mem_singleton.mpr rfl)
  exact ⟨_, _, done, rfl, declared, lines⟩

/-- An alias leaves to choice what the typed context requires. -/
theorem required_attributes_weakened : ∃ o,
    generate attributesRequired [] { Settings.standard with strict := true } = .ok o ∧
    ∃ context special, o.Declares context ∧ o.Declares special ∧ context.id = Dialect.typedContext ∧
      .typedContext ∈ special.parents ∧ context.Requires Dialect.customAttributes ∧
      ¬special.Requires Dialect.customAttributes := by
  let j := Job.ofListing attributesRequired [] { Settings.standard with strict := true }
  have first := List.mem_of_getElem? (show j.catalog.entries[0]? = some _ from rfl)
  have second := List.mem_of_getElem? (show j.catalog.entries[1]? = some _ from rfl)
  have context : j.output.Declares _ := Job.output_declares first rfl
  have special : j.output.Declares _ := Job.output_declares second rfl
  refine ⟨j.output, rfl, _, _, context, special, rfl, List.mem_singleton.mpr rfl, ?_, ?_⟩
  · exact ⟨_, List.mem_cons_self, rfl, rfl⟩
  · rintro ⟨m, listed, _, required⟩
    rcases Job.mem_addedMembers listed with ⟨_, rfl⟩ | rfl | rfl <;> cases required

end EntityTypings
