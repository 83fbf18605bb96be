import EntityTypings.Proofs.Inheritance.Catalog
import EntityTypings.Proofs.NameTable

/-!
# How a listing is resolved

The positions that a single walk over a listing collects, keeping the first for each id, are those at which a catalog
finds its entries: `lookup_positions`, `Catalog.find?_position`. `inheritance_resolved` says what a catalog finds, what
its entries extend, and that an interface leaves a property only to a schema that it extends.
-/

namespace EntityTypings

variable {schemas : List EntitySchema} {id : String} {position : Nat} {s : EntitySchema}

/-! ### Positions by id -/

/-- Puts a value under a name that has none. -/
def NameTable.insertNew {α : Type} (t : NameTable α) (name : String) (value : α) : NameTable α :=
  if t.contains name then t else t.insert name value

/-- Collects the position of a schema under its id, if it has one. -/
def addPosition (t : NameTable Nat) (s : EntitySchema) (position : Nat) : NameTable Nat :=
  match s.id? with
  | none => t
  | some id => t.insertNew id position

/-- The positions that one walk over a listing collects. -/
def positions (schemas : List EntitySchema) : NameTable Nat :=
  schemas.zipIdx.foldl (fun t entry => addPosition t entry.1 entry.2) .empty

/-- A schema is the first in a listing with an id. -/
structure FirstWithId (schemas : List EntitySchema) (id : String) (position : Nat) (s : EntitySchema) : Prop where
  listed : schemas[position]? = some s
  named : s.id? = some id
  least : ∀ earlier t, earlier < position → schemas[earlier]? = some t → t.id? ≠ some id

theorem NameTable.lookup_insertNew {α : Type} (t : NameTable α) (name : String) (value : α) (key : String) :
    (t.insertNew name value).lookup key = (t.lookup key).or (if name = key then some value else none) := by
  unfold insertNew
  cases taken : t.lookup name with
  | some old =>
    rw [contains, taken, Option.isSome_some, if_pos rfl]
    by_cases same : name = key
    · rw [← same, taken, Option.some_or]
    · rw [if_neg same, Option.or_none]
  | none =>
    rw [contains, taken, Option.isSome_none, if_neg Bool.false_ne_true]
    by_cases same : name = key
    · rw [← same, lookup_insert_self, taken, if_pos rfl, Option.none_or]
    · rw [lookup_insert_other _ _ (Ne.symm same), if_neg same, Option.or_none]

theorem lookup_addPosition (t : NameTable Nat) (s : EntitySchema) (position : Nat) (id : String) :
    (addPosition t s position).lookup id = (t.lookup id).or (if s.id? = some id then some position else none) := by
  unfold addPosition
  cases s.id? with
  | none => simp
  | some own => simp only [NameTable.lookup_insertNew, Option.some.injEq]

theorem positions_concat (schemas : List EntitySchema) (s : EntitySchema) :
    positions (schemas ++ [s]) = addPosition (positions schemas) s schemas.length := by
  rw [positions, List.zipIdx_append, List.foldl_append, Nat.zero_add]
  rfl

theorem lookup_positions (schemas : List EntitySchema) (id : String) :
    (positions schemas).lookup id = schemas.findIdx? fun s => s.id? == some id := by
  induction schemas using List.reverseRecOn with
  | nil => rfl
  | append_singleton schemas s ih =>
    rw [positions_concat, lookup_addPosition, ih, List.findIdx?_append, List.findIdx?_singleton]
    by_cases named : s.id? = some id <;> simp [named]

theorem lookup_positions_eq_some :
    (positions schemas).lookup id = some position ↔ ∃ s, FirstWithId schemas id position s := by
  rw [lookup_positions, List.findIdx?_eq_some_iff_getElem]
  constructor
  · rintro ⟨bound, named, least⟩
    refine ⟨schemas[position], List.getElem?_eq_getElem bound, by simpa using named, ?_⟩
    rintro earlier t before listed named'
    obtain ⟨bound', rfl⟩ := List.getElem?_eq_some_iff.mp listed
    exact least earlier before (by simpa using named')
  · rintro ⟨s, listed, named, least⟩
    obtain ⟨bound, rfl⟩ := List.getElem?_eq_some_iff.mp listed
    refine ⟨bound, by simpa using named, fun earlier before named' => ?_⟩
    exact least earlier _ before (List.getElem?_eq_getElem _) (by simpa using named')

/-! ### Entries -/

/-- The id that a part of an extends clause names. -/
def Parent.target : Parent → String
  | .base id => id
  | .typedContext => Dialect.typedContext

/-- The interface of an entry extends that of a schema. -/
def CatalogEntry.Extends (e source : CatalogEntry) : Prop := ∃ parent ∈ e.parents, source.id? = some parent.target

namespace Catalog

/-- What a catalog finds is what a listing has first. -/
structure Indexes (c : Catalog) (schemas : List EntitySchema) : Prop where
  /-- The schemas are those of the listing, in its order. -/
  kept : c.schemas = schemas
  collected : ∀ id position, (positions schemas).lookup id = some position ↔ ∃ s, FirstWithId schemas id position s
  inBounds : ∀ id position, (positions schemas).lookup id = some position → position < c.entries.length
  found : ∀ id, c.find? id = ((positions schemas).lookup id).bind (c.entries[·]?)
  first : ∀ id s, (c.find? id).map CatalogEntry.schema = some s ↔ ∃ position, FirstWithId schemas id position s
  unknown : ∀ id, c.find? id = none ↔ ∀ s ∈ schemas, s.id? ≠ some id
  unnamed : c.find? "" = none

/-- What the interface of an entry extends is what its schema asks for and a catalog has. -/
structure ResolvesTo (c : Catalog) (e : CatalogEntry) : Prop where
  /-- At most one base, and behind it at most the typed context. -/
  ordered : e.parents = (e.base?.map Parent.base).toList ++ if e.isAlias then [.typedContext] else []
  base : ∀ id, e.base? = some id ↔ e.schema.mixin = some id ∧ ∃ source, c.find? id = some source
  specialised : e.isAlias = true ↔ e.schema.aliasFor = some (.bare "Task") ∨
    ∃ classifiers, e.schema.aliasFor = some (.entity "Task" classifiers)

/-- What an interface leaves to a source, it leaves to a schema that it extends. -/
structure LeavesToExtended (c : Catalog) (e : CatalogEntry) : Prop where
  specialised : e.isAlias = true → c.propertySource? e = c.find? "TypedContext"
  derived : e.isAlias = false → ((∃ source, c.propertySource? e = some source) ↔ ∃ id, e.base? = some id)
  extended : ∀ source, c.propertySource? e = some source → source ∈ c.entries ∧ e.Extends source
  left : ∀ entry ∈ e.schema.properties.entries, entry ∉ c.ownProperties e →
    entry.1.toList.head? = some '_' ∨ (e.isAlias = true ∧ entry.1 = "custom_attributes") ∨
    ∃ source ∈ c.entries, e.Extends source ∧ source.schema.hasProperty entry.1 = true

variable {e : CatalogEntry}

theorem find?_position (schemas : List EntitySchema) (id : String) :
    (ofSchemas schemas).find? id = ((positions schemas).lookup id).bind ((ofSchemas schemas).entries[·]?) := by
  rw [lookup_positions, find?, List.find?_eq_bind_findIdx?_getElem?, ofSchemas, List.findIdx?_map]
  rfl

theorem find?_schema (schemas : List EntitySchema) (id : String) :
    ((ofSchemas schemas).find? id).map CatalogEntry.schema =
      ((positions schemas).lookup id).bind (schemas[·]?) := by
  rw [find?_ofSchemas, lookup_positions, findSchema?, ← List.find?_eq_bind_findIdx?_getElem?, Option.map_map]
  exact Option.map_id'

theorem ofSchemas_indexes (schemas : List EntitySchema) : (ofSchemas schemas).Indexes schemas where
  kept := schemas_ofSchemas schemas
  collected _ _ := lookup_positions_eq_some
  inBounds id position found := by
    obtain ⟨s, first⟩ := lookup_positions_eq_some.mp found
    obtain ⟨bound, _⟩ := List.getElem?_eq_some_iff.mp first.listed
    rwa [ofSchemas, List.length_map]
  found := find?_position schemas
  first id s := by
    rw [find?_schema, Option.bind_eq_some_iff]
    constructor
    · rintro ⟨position, found, listed⟩
      obtain ⟨s', first⟩ := lookup_positions_eq_some.mp found
      cases first.listed.symm.trans listed
      exact ⟨position, first⟩
    · rintro ⟨position, first⟩
      exact ⟨position, lookup_positions_eq_some.mpr ⟨s, first⟩, first.listed⟩
  unknown id := by
    rw [find?_ofSchemas, Option.map_eq_none_iff, findSchema?, List.find?_eq_none]
    simp only [beq_iff_eq, ne_eq]
  unnamed := by
    rw [find?_ofSchemas, Option.map_eq_none_iff, findSchema?, List.find?_eq_none]
    intro s _ named
    exact EntitySchema.id?_ne_empty (beq_iff_eq.mp named) rfl

theorem aliasTarget?_eq_some {target : String} : s.aliasTarget? = some target ↔
    s.aliasFor = some (.bare target) ∨ ∃ classifiers, s.aliasFor = some (.entity target classifiers) := by
  unfold EntitySchema.aliasTarget?
  cases s.aliasFor with
  | none => simp
  | some marker => cases marker <;> simp [AliasMarker.id]

theorem ofSchemas_resolves (listed : e ∈ (ofSchemas schemas).entries) : (ofSchemas schemas).ResolvesTo e where
  ordered := by
    obtain ⟨s, _, rfl⟩ := List.mem_map.mp listed
    rw [base?_parentsIn, isAlias_parentsIn]
    simp only [decide_eq_true_eq]
    exact parentsIn_parts schemas s
  base id := by
    rw [base?_eq_some listed, found_iff_listed]
    obtain ⟨s, _, rfl⟩ := List.mem_map.mp listed
    exact base_mem_parentsIn
  specialised := by
    obtain ⟨s, _, rfl⟩ := List.mem_map.mp listed
    rw [isAlias_parentsIn, decide_eq_true_iff]
    exact aliasTarget?_eq_some

theorem source_extended {source : CatalogEntry} (listed : e ∈ (ofSchemas schemas).entries)
    (taken : (ofSchemas schemas).propertySource? e = some source) :
    source ∈ (ofSchemas schemas).entries ∧ e.Extends source := by
  unfold propertySource? at taken
  split at taken
  · next aliased =>
    obtain ⟨member, named⟩ := find?_eq_some taken
    exact ⟨member, .typedContext, isAlias_iff.mp aliased, named⟩
  · obtain ⟨id, base, found⟩ := Option.bind_eq_some_iff.mp taken
    obtain ⟨member, named⟩ := find?_eq_some found
    exact ⟨member, .base id, (base?_eq_some listed).mp base, named⟩

theorem ofSchemas_leaves (listed : e ∈ (ofSchemas schemas).entries) : (ofSchemas schemas).LeavesToExtended e where
  specialised aliased := by
    rw [propertySource?, if_pos aliased]
    rfl
  derived plain := by
    rw [propertySource?, plain, if_neg Bool.false_ne_true]
    constructor
    · rintro ⟨source, found⟩
      obtain ⟨id, base, _⟩ := Option.bind_eq_some_iff.mp found
      exact ⟨id, base⟩
    · rintro ⟨id, base⟩
      obtain ⟨_, source, found⟩ := ((ofSchemas_resolves listed).base id).mp base
      exact ⟨source, Option.bind_eq_some_iff.mpr ⟨id, base, found⟩⟩
  extended _ := source_extended listed
  left entry declared dropped := by
    by_contra kept
    push Not at kept
    obtain ⟨visible, unnarrowed, own⟩ := kept
    refine dropped (mem_ownProperties.mpr ⟨declared, visible, fun source taken => ?_, ?_⟩)
    · obtain ⟨member, extended⟩ := source_extended listed taken
      exact Bool.eq_false_iff.mpr (own source member extended)
    · rintro ⟨aliased, narrowed⟩
      exact unnarrowed aliased narrowed

end Catalog

/-- A catalog finds under an id what its listing has first, and each entry extends what its schema asks for and the
listing has. The properties that an interface leaves to another are left to one that it extends. -/
theorem inheritance_resolved (schemas : List EntitySchema) : (Catalog.ofSchemas schemas).Indexes schemas ∧
    ∀ e ∈ (Catalog.ofSchemas schemas).entries,
      (Catalog.ofSchemas schemas).ResolvesTo e ∧ (Catalog.ofSchemas schemas).LeavesToExtended e :=
  ⟨Catalog.ofSchemas_indexes schemas, fun _ listed =>
    ⟨Catalog.ofSchemas_resolves listed, Catalog.ofSchemas_leaves listed⟩⟩

/-- An alias that extends itself, another schema with its id, and one without an id whose mixin is not listed. -/
def tangled : List EntitySchema :=
  [.named "TypedContext",
    { EntitySchema.named "Shot" with mixin := some "Shot", aliasFor := some (.bare "Task") },
    (EntitySchema.named "Shot").addProperty "fps" (.typed "number"),
    { EntitySchema.empty with mixin := some "Version" }]

theorem tangled_resolved : ∃ e, e ∈ (Catalog.ofSchemas tangled).entries ∧
    e.parents = [.base "Shot", .typedContext] ∧ (Catalog.ofSchemas tangled).ResolvesTo e ∧
    (Catalog.ofSchemas tangled).LeavesToExtended e ∧
    ((Catalog.ofSchemas tangled).find? "Shot").map CatalogEntry.schema = some tangled[1] := by
  have shot := List.mem_of_getElem? (show (Catalog.ofSchemas tangled).entries[1]? = some _ from rfl)
  obtain ⟨indexes, entries⟩ := inheritance_resolved tangled
  obtain ⟨resolves, leaves⟩ := entries _ shot
  have first : FirstWithId tangled "Shot" 1 tangled[1] := by
    refine ⟨rfl, by decide, fun earlier t before listed => ?_⟩
    obtain rfl : earlier = 0 := Nat.lt_one_iff.mp before
    cases listed
    decide
  exact ⟨_, shot, by decide, resolves, leaves, (indexes.first _ _).mpr ⟨1, first⟩⟩

example : (positions tangled).entries = [("Shot", 1), ("TypedContext", 0)] := by decide

end EntityTypings
