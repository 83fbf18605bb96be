import EntityTypings.Proofs.Generation.Attributes
import EntityTypings.Proofs.Text.Bytes
import EntityTypings.Proofs.TypeScript.InterfaceText
import EntityTypings.Proofs.TypeScript.Literals
import Mathlib.Data.List.Nodup

/-!
# The members of an interface

The members of a declared interface are those of the properties that its entry declares itself, and then those that
are added to every interface of its kind. No two of them have one key, and each property either has its member or is
reported: `interface_members`.
-/

namespace EntityTypings

open TypeScript

/-- An entry declares a property itself. -/
structure Catalog.Selects (c : Catalog) (e : CatalogEntry) (name : String) (p : Property) : Prop where
  listed : (name, p) ∈ e.schema.properties.entries
  visible : name.toList.head? ≠ some '_'
  own : ∀ source, c.propertySource? e = some source → source.schema.hasProperty name = false
  unnarrowed : ¬(e.isAlias = true ∧ name = Dialect.customAttributes)

/-- A member is what a property of an entry is declared as under the schema id `id`. -/
structure TypeScript.Member.Declares (m : Member) (j : Job) (id : String) (e : CatalogEntry) (p : Property) :
    Prop where
  type : mapProperty ⟨id, m.name⟩ p = .ok (.typed m.type)
  required : m.required = true ↔ m.name ∈ e.schema.required ∨ m.name ∈ e.schema.primaryKey
  readOnly : m.readOnly = true ↔ m.name ∈ e.schema.immutable ∨ m.name ∈ e.schema.computed
  doc : m.doc = if j.settings.emitDocs then docComment p else none

/-- The properties that an entry declares itself are those with a member in `own`, in ascending order of the bytes of
their names, and those reported in `skipped`. -/
structure Job.AccountsFor (j : Job) (id : String) (e : CatalogEntry) (own : List Member) (skipped : List SoftError) :
    Prop where
  ascending : own.Pairwise fun m m' => Text.bytes m.name < Text.bytes m'.name
  declared : ∀ m, m ∈ own ↔ ∃ p, j.catalog.Selects e m.name p ∧ m.Declares j id e p
  reported : ∀ err ∈ skipped, ∃ name p, j.catalog.Selects e name p ∧ err.site? = some ⟨id, name⟩
  once : ∀ name p, j.catalog.Selects e name p →
    (own.filter (·.name = name)).length + (skipped.filter (·.site? = some ⟨id, name⟩)).length = 1

variable {j : Job} {e : CatalogEntry} {id : String}

theorem Catalog.selects_iff {c : Catalog} {entry : String × Property} :
    c.Selects e entry.1 entry.2 ↔ entry ∈ c.ownProperties e := by
  rw [mem_ownProperties]
  constructor
  · rintro ⟨listed, visible, own, unnarrowed⟩
    exact ⟨listed, visible, own, unnarrowed⟩
  · rintro ⟨listed, visible, own, unnarrowed⟩
    exact ⟨listed, visible, own, unnarrowed⟩

/-- What comes from one item of a list is found by the item's key. -/
theorem filter_filterMap_key {α β κ : Type} [DecidableEq κ] {f : α → Option β} {key : β → κ} {source : α → κ}
    (keyed : ∀ a b, f a = some b → key b = source a) {items : List α} (distinct : (items.map source).Nodup)
    {a : α} (listed : a ∈ items) : (items.filterMap f).filter (key · = source a) = (f a).toList := by
  have absent {others : List α} (apart : source a ∉ others.map source) :
      (others.filterMap f).filter (key · = source a) = [] := by
    rw [List.filter_eq_nil_iff]
    intro b made same
    obtain ⟨a', listed, from'⟩ := List.mem_filterMap.mp made
    refine apart (List.mem_map.mpr ⟨a', listed, ?_⟩)
    rw [← keyed a' b from', of_decide_eq_true same]
  induction items with
  | nil => exact absurd listed List.not_mem_nil
  | cons first others ih =>
    obtain ⟨apart, distinct⟩ := List.nodup_cons.mp distinct
    rw [List.filterMap_cons]
    rcases List.mem_cons.mp listed with rfl | later
    · cases made : f a with
      | none => exact absent apart
      | some b => rw [List.filter_cons, if_pos (decide_eq_true (keyed a b made)), absent apart]; rfl
    · have different : source first ≠ source a := fun same => apart (same ▸ List.mem_map_of_mem later)
      cases made : f first with
      | none => exact ih distinct later
      | some b =>
        have other : key b ≠ source a := keyed first b made ▸ different
        rw [List.filter_cons, if_neg (mt of_decide_eq_true other)]
        exact ih distinct later

namespace Job

/-! ### Members of properties -/

theorem member?_declares {entry : String × Property} {m : Member} :
    j.member? id e.schema entry = some m ↔ m.name = entry.1 ∧ m.Declares j id e entry.2 := by
  obtain ⟨name, p⟩ := entry
  rw [member?_eq_some]
  constructor
  · rintro ⟨type, mapped, rfl⟩
    refine ⟨rfl, mapped, ?_, ?_, rfl⟩
    · simp [propertyMember, EntitySchema.isRequired]
    · simp [propertyMember, EntitySchema.isReadOnly]
  · obtain ⟨own, type, required, readOnly, doc⟩ := m
    rintro ⟨rfl, mapped, needed, fixed, commented⟩
    refine ⟨type, mapped, ?_⟩
    have needed : required = e.schema.isRequired own := by
      rw [Bool.eq_iff_iff, needed]
      simp [EntitySchema.isRequired]
    have fixed : readOnly = e.schema.isReadOnly own := by
      rw [Bool.eq_iff_iff, fixed]
      simp [EntitySchema.isReadOnly]
    rw [propertyMember, needed, fixed, ← commented]

theorem ownNames_distinct (c : Catalog) (e : CatalogEntry) : ((c.ownProperties e).map Prod.fst).Nodup := by
  rw [List.Nodup, List.pairwise_map]
  refine (c.ownProperties_ascending e).imp fun less same => ?_
  rw [same] at less
  exact String.lt_irrefl _ less

theorem members_ascending (id : String) (e : CatalogEntry) :
    ((j.catalog.ownProperties e).filterMap (j.member? id e.schema)).Pairwise
      fun m m' => Text.bytes m.name < Text.bytes m'.name := by
  refine (j.catalog.ownProperties_ascending e).filterMap _ fun entry entry' less m made m' made' => ?_
  rw [member?_name made, member?_name made']
  exact Text.bytes_lt less

theorem declared_once {entry : String × Property} (listed : entry ∈ j.catalog.ownProperties e) :
    ((j.catalog.ownProperties e).filterMap (j.member? id e.schema)).filter (·.name = entry.1) =
      (j.member? id e.schema entry).toList :=
  filter_filterMap_key (fun _ _ made => member?_name made) (ownNames_distinct j.catalog e) listed

theorem reported_once {entry : String × Property} (listed : entry ∈ j.catalog.ownProperties e) :
    ((j.catalog.ownProperties e).filterMap (skip? id)).filter (·.site? = some ⟨id, entry.1⟩) =
      (skip? id entry).toList := by
  have sites : ((j.catalog.ownProperties e).map fun entry => some (PropertySite.mk id entry.1)).Nodup := by
    have apart := (ownNames_distinct j.catalog e).map (f := fun name => some (PropertySite.mk id name))
      fun a b same => by simpa using same
    rwa [List.map_map] at apart
  exact filter_filterMap_key (fun _ _ made => mapProperty_skipped_site (skip?_eq_some.mp made)) sites listed

/-- A property without a fault has its member or its soft error. -/
theorem member_or_skip {entry : String × Property}
    (sound : ∀ failure, ¬Fault ⟨id, entry.1⟩ entry.2 failure) :
    (j.member? id e.schema entry).toList.length + (skip? id entry).toList.length = 1 := by
  unfold member? skip?
  cases mapped : mapProperty ⟨id, entry.1⟩ entry.2 with
  | error failure => exact absurd (mapProperty_eq_error.mp mapped) (sound failure)
  | ok outcome => cases outcome <;> rfl

theorem accountsFor_of_faultless (faultless : EntityTypings.Faultless id (j.catalog.ownProperties e)) :
    j.AccountsFor id e ((j.catalog.ownProperties e).filterMap (j.member? id e.schema))
      ((j.catalog.ownProperties e).filterMap (skip? id)) where
  ascending := members_ascending id e
  declared m := by
    rw [List.mem_filterMap]
    constructor
    · rintro ⟨entry, listed, made⟩
      obtain ⟨name, declares⟩ := member?_declares.mp made
      exact ⟨entry.2, name ▸ Catalog.selects_iff.mpr listed, declares⟩
    · rintro ⟨p, selected, declares⟩
      exact ⟨(m.name, p), Catalog.selects_iff.mp selected, member?_declares.mpr ⟨rfl, declares⟩⟩
  reported err skipped := by
    obtain ⟨entry, listed, made⟩ := List.mem_filterMap.mp skipped
    exact ⟨entry.1, entry.2, Catalog.selects_iff.mpr listed, mapProperty_skipped_site (skip?_eq_some.mp made)⟩
  once name p selected := by
    have listed : (name, p) ∈ j.catalog.ownProperties e := Catalog.selects_iff.mp selected
    rw [declared_once listed, reported_once listed]
    exact member_or_skip (faultless _ listed)

/-! ### Names of members -/

theorem own_name_visible {m : Member} (own : m ∈ (j.catalog.ownProperties e).filterMap (j.member? id e.schema)) :
    m.name.toList.head? ≠ some '_' := by
  obtain ⟨entry, listed, made⟩ := List.mem_filterMap.mp own
  rw [member?_name made]
  exact (Catalog.selects_iff.mpr listed).visible

theorem addedMembers_names (j : Job) (id : String) (e : CatalogEntry) : (j.addedMembers id e).map Member.name =
    (if e.isAlias then [Dialect.customAttributes] else []) ++ Dialect.metaMembers := by
  unfold addedMembers
  split <;> rfl

theorem names_distinct (j : Job) (id : String) (e : CatalogEntry) :
    (((j.catalog.ownProperties e).filterMap (j.member? id e.schema) ++ j.addedMembers id e).map
      Member.name).Nodup := by
  have own : (((j.catalog.ownProperties e).filterMap (j.member? id e.schema)).map Member.name).Nodup := by
    rw [List.Nodup, List.pairwise_map]
    refine (members_ascending id e).imp fun less same => ?_
    rw [same] at less
    exact List.lt_irrefl _ less
  have added : ((j.addedMembers id e).map Member.name).Nodup := by
    rw [addedMembers_names]
    split <;> decide
  rw [List.map_append, List.nodup_append]
  refine ⟨own, added, ?_⟩
  -- the names of added members start with `_`, all but that of the member that an alias redeclares
  intro name fromOwn name' fromAdded same
  subst same
  obtain ⟨m, member, rfl⟩ := List.mem_map.mp fromOwn
  rw [addedMembers_names] at fromAdded
  rcases List.mem_append.mp fromAdded with narrowed | internal
  · split at narrowed
    next specialises => exact own_name_of_alias specialises member (List.mem_singleton.mp narrowed)
    · cases narrowed
  · have marked : ∀ name ∈ Dialect.metaMembers, name.toList.head? = some '_' := by decide
    exact own_name_visible member (marked _ internal)

theorem report_eq_declared {index : Nat} {i : Interface}
    (done : (j.report index e).result = .ok (some i)) :
    e.id? = some i.id ∧ i.parents = e.parents ∧ EntityTypings.Faultless i.id (j.catalog.ownProperties e) ∧
      i.members =
        (j.catalog.ownProperties e).filterMap (j.member? i.id e.schema) ++ j.addedMembers i.id e := by
  have faultless := report_eq_ok.mp ⟨_, done⟩
  have declared : j.interface? e = some i := by
    rw [← interface?_report j index e, Report.interface?, done]
  cases named : e.id? with
  | none => simp [interface?, named] at declared
  | some id =>
    rw [interface?_of_faultless named (faultless id named)] at declared
    obtain rfl := Option.some.inj declared
    exact ⟨rfl, rfl, faultless id named, rfl⟩

end Job

/-- An interface has the members of the properties that its entry declares itself, then the narrowed attributes, if it
is an alias, then the two members of every interface. Their keys are distinct. The block of code names what the entry
extends and has a line for each member. -/
theorem interface_members {index : Nat} {i : Interface} (done : (j.report index e).result = .ok (some i)) :
    e.id? = some i.id ∧ i.parents = e.parents ∧
    (∃ own, j.AccountsFor i.id e own (j.report index e).skipped ∧
      i.members = own ++
        (if e.isAlias then [.optional Dialect.customAttributes (j.narrowing.fieldType i.id)] else []) ++
        [.optional Dialect.entityType
            (if i.id = Dialect.typedContext then .reference Dialect.typeParameter else .literal i.id),
          .optional Dialect.permissions .openRecord]) ∧
    (i.members.map fun m => propertyKey m.name).Nodup ∧
    ∀ o : Output, (o.record (j.report index e)).code = o.code ++ separator o.code ++ ("export interface " ++
      (if i.id = "TypedContext" then "TypedContext<K extends TypedContextSubtype = TypedContextSubtype>" else i.id) ++
      (if i.parents = [] then "" else " extends " ++ ", ".intercalate (i.parents.map fun parent =>
        "Omit<" ++ parentName i.id parent ++ ", \"__entity_type__\" | \"__permissions\">")) ++ " \x7b\n" ++
      String.join (i.members.map fun m => m.doc.getD "" ++ ("  " ++ (if m.readOnly then "readonly " else "") ++
        propertyKey m.name ++ (if m.required then "" else "?") ++ ": " ++ m.type.render ++ ";\n")) ++ "\x7d\n") := by
  obtain ⟨named, parents, faultless, members⟩ := Job.report_eq_declared done
  have skipped : (j.report index e).skipped = (j.catalog.ownProperties e).filterMap (skip? i.id) :=
    Job.skipped_of_faultless named faultless
  have typed : e.isTypedContext = decide (i.id = Dialect.typedContext) := by
    rw [CatalogEntry.isTypedContext, named]
    rfl
  refine ⟨named, parents, ⟨(j.catalog.ownProperties e).filterMap (j.member? i.id e.schema), ?_, ?_⟩, ?_, fun o => ?_⟩
  · rw [skipped]
    exact Job.accountsFor_of_faultless faultless
  · rw [members, Job.addedMembers, typed, List.append_assoc]
    simp only [decide_eq_true_eq]
  · have distinct := (Job.names_distinct j i.id e).map fun _ _ => propertyKey_injective
    rwa [List.map_map, ← members] at distinct
  · unfold Output.record
    rw [done, ← i.render_eq]
    rfl

/-- An alias with a property that it redeclares, an internal one, one without a type, and names that are quoted. -/
def awkward : EntitySchema :=
  { ((((EntitySchema.named "Shot").addProperty "say \"hi\"" (.typed "string")).addProperty
      Dialect.customAttributes (.typed "datetime")).addProperty Dialect.entityType (.typed "number")).addProperty
      "notes" .empty |>.addProperty "frame-rate" (.referring "Shot") with
    aliasFor := some (.bare "Task"), required := ["frame-rate"], computed := ["frame-rate"] }

theorem awkward_members : ∃ i own,
    ((Job.ofListing [.named "TypedContext", awkward] [] .standard).report 1 ⟨awkward, [.typedContext]⟩).result =
      .ok (some i) ∧
    (Job.ofListing [.named "TypedContext", awkward] [] .standard).AccountsFor "Shot" ⟨awkward, [.typedContext]⟩ own
      [.untypedProperty ⟨"Shot", "notes"⟩] ∧
    (i.members.map fun m => propertyKey m.name) =
      ["\"frame-rate\"", "\"say \\\"hi\\\"\"", "custom_attributes", "__entity_type__", "__permissions"] ∧
    (i.members.map fun m => propertyKey m.name).Nodup := by
  have done : ((Job.ofListing [.named "TypedContext", awkward] [] .standard).report 1
    ⟨awkward, [.typedContext]⟩).result = .ok (some _) := rfl
  obtain ⟨_, _, ⟨own, accounts, _⟩, distinct, _⟩ := interface_members done
  exact ⟨_, own, done, accounts, rfl, distinct⟩

end EntityTypings
