import EntityTypings.Proofs.Generation.Declarations
import EntityTypings.Proofs.Inheritance.Reordering

/-!
# Passes and the order of a listing

Where no two schemas have one id, a pass declares each of them by itself: `Job.declarations_by_schema`. So it
succeeds in every order of the listing or in none, and only the order of what it puts out follows that of the
listing: `generate_reordered`.
-/

namespace EntityTypings

open TypeScript

/-- A soft error without the position of an entry that lacks an id. -/
def SoftError.unplaced : SoftError → SoftError
  | .missingId _ => .missingId 0
  | err => err

/-- Whether the interface of a schema specialises the typed context. -/
def EntitySchema.specialises (s : EntitySchema) : Bool := s.aliasTarget? = some Dialect.aliasedEntity

/-- What a listing declares if each of its schemas is declared by itself. The declarations behind the interfaces
name schemas in the order of the listing. -/
def declarationsBy (declare : EntitySchema → Option Interface) (settings : Settings)
    (schemas : List EntitySchema) : List Declaration :=
  (schemas.filterMap declare).map .interface ++
    (if Dialect.typedContext ∈ listedIds schemas then
      [.subtypeUnion (listedIds (schemas.filter EntitySchema.specialises))] else []) ++
    (if settings.emitEntityTypeMap ∧ listedIds schemas ≠ [] then [.entityTypeMap (listedIds schemas)] else [])

variable {schemas schemas' : List EntitySchema} {attributes : List Attribute} {settings : Settings}

/-! ### Schemas on their own -/

theorem eraseDups_of_nodup {ids : List String} (distinct : ids.Nodup) : ids.eraseDups = ids := by
  induction ids with
  | nil => rfl
  | cons id rest ih =>
    obtain ⟨fresh, distinct⟩ := List.nodup_cons.mp distinct
    have kept : rest.filter (fun other => !other == id) = rest := by
      refine List.filter_eq_self.mpr fun other listed => ?_
      simpa using fun same : other = id => fresh (same ▸ listed)
    rw [List.eraseDups_cons, kept, ih distinct]

theorem Catalog.aliasIds_ofSchemas (schemas : List EntitySchema) :
    (ofSchemas schemas).aliasIds = listedIds (schemas.filter EntitySchema.specialises) := by
  rw [aliasIds, ofSchemas, List.filter_map, List.filterMap_map]
  have specialises : CatalogEntry.isAlias ∘ (fun s => ⟨s, parentsIn schemas s⟩) = EntitySchema.specialises :=
    funext (isAlias_parentsIn schemas)
  rw [specialises]
  rfl

theorem Catalog.subtypes_ofSchemas (distinct : (listedIds schemas).Nodup) :
    subtypes (.ofSchemas schemas) = listedIds (schemas.filter EntitySchema.specialises) := by
  rw [subtypes, aliasIds_ofSchemas]
  exact eraseDups_of_nodup (distinct.sublist (List.filter_sublist.filterMap _))

namespace Job

variable {j : Job} {e : CatalogEntry}

/-- The interface that a schema is declared as. -/
def declare (j : Job) (s : EntitySchema) : Option Interface := j.interface? ⟨s, parentsIn j.catalog.schemas s⟩

theorem interfaces_by_schema (schemas : List EntitySchema) (attributes : List Attribute) (settings : Settings) :
    (Job.ofListing schemas attributes settings).interfaces =
      schemas.filterMap (Job.ofListing schemas attributes settings).declare := by
  have declare : (Job.ofListing schemas attributes settings).declare =
      (Job.ofListing schemas attributes settings).interface? ∘ fun s => ⟨s, parentsIn schemas s⟩ := by
    funext s
    rw [Job.declare, Catalog.schemas_ofSchemas]
    rfl
  rw [interfaces, declare, ← List.filterMap_map]
  rfl

theorem declarations_by_schema (distinct : (listedIds schemas).Nodup)
    (faultless : (Job.ofListing schemas attributes settings).Faultless) :
    (Job.ofListing schemas attributes settings).declarations =
      declarationsBy (Job.ofListing schemas attributes settings).declare settings schemas := by
  rw [declarations, declarationsBy, interfaces_ids faultless, interfaces_by_schema,
    Catalog.subtypes_ofSchemas distinct, eraseDups_of_nodup distinct]
  simp only [Catalog.typedContext?_isSome]

theorem errors_unplaced (j : Job) : j.output.errors.map SoftError.unplaced =
    j.catalog.entries.flatMap fun e => (j.report 0 e).skipped.map SoftError.unplaced := by
  have position : (fun x : CatalogEntry × Nat => (j.report x.2 x.1).skipped.map SoftError.unplaced) =
      fun x => (j.report 0 x.1).skipped.map SoftError.unplaced := by
    funext x
    unfold report
    cases x.1.id? <;> rfl
  have entries : j.catalog.entries = j.catalog.entries.zipIdx.map Prod.fst := by
    rw [List.zipIdx_map_fst]
  rw [output_errors, reports, List.mapIdx_eq_zipIdx_map, List.flatMap_map, List.map_flatMap, position]
  conv_rhs => rw [entries, List.flatMap_map]

/-! ### Two orders -/

theorem report_reordered (order : schemas.Perm schemas') (distinct : (listedIds schemas).Nodup) :
    (Job.ofListing schemas attributes settings).report = (Job.ofListing schemas' attributes settings).report := by
  have same := Catalog.find?_reordered order distinct
  funext index e
  apply report_congr
  case docs => rfl
  case narrowing => rw [narrowing, narrowing, Catalog.attributeElement?_congr same]
  case own => exact Catalog.ownProperties_congr same

theorem declare_reordered (order : schemas.Perm schemas') (distinct : (listedIds schemas).Nodup) :
    (Job.ofListing schemas attributes settings).declare =
      (Job.ofListing schemas' attributes settings).declare := by
  funext s
  rw [declare, declare, ← interface?_report _ 0, ← interface?_report _ 0, report_reordered order distinct,
    Catalog.schemas_ofSchemas, Catalog.schemas_ofSchemas, parentsIn_reordered order distinct]

theorem faultless_reordered (order : schemas.Perm schemas') (distinct : (listedIds schemas).Nodup)
    (faultless : (Job.ofListing schemas attributes settings).Faultless) :
    (Job.ofListing schemas' attributes settings).Faultless := by
  intro e listed id named
  have before := (Catalog.entries_reordered order distinct).mem_iff.mpr listed
  have own : (Catalog.ofSchemas schemas).ownProperties e = (Catalog.ofSchemas schemas').ownProperties e :=
    Catalog.ownProperties_congr (Catalog.find?_reordered order distinct)
  exact own ▸ faultless e before id named

theorem errors_reordered (order : schemas.Perm schemas') (distinct : (listedIds schemas).Nodup) :
    ((Job.ofListing schemas attributes settings).output.errors.map SoftError.unplaced).Perm
      ((Job.ofListing schemas' attributes settings).output.errors.map SoftError.unplaced) := by
  rw [errors_unplaced, errors_unplaced, report_reordered order distinct]
  exact (Catalog.entries_reordered order distinct).flatMap_right _

theorem declare_id (faultless : (Job.ofListing schemas attributes settings).Faultless) {s : EntitySchema}
    (listed : s ∈ schemas) :
    ((Job.ofListing schemas attributes settings).declare s).map Interface.id = s.id? := by
  have entry : ⟨s, parentsIn schemas s⟩ ∈ (Catalog.ofSchemas schemas).entries :=
    List.mem_map_of_mem listed
  rw [declare, Catalog.schemas_ofSchemas]
  cases named : s.id? with
  | none => simp [interface?, CatalogEntry.id?, named]
  | some id =>
    have named : CatalogEntry.id? ⟨s, parentsIn schemas s⟩ = some id := named
    rw [interface?_of_faultless named (faultless _ entry id named), Option.map_some]

end Job

/-- A pass that succeeds for a listing succeeds for each of its orders. -/
theorem generate_succeeds_reordered {o : Output} (order : schemas.Perm schemas')
    (distinct : (listedIds schemas).Nodup) (done : generate schemas attributes settings = .ok o) :
    ∃ o', generate schemas' attributes settings = .ok o' := by
  obtain ⟨accepted, faultless, _⟩ := generate_eq_ok_declarations done
  by_cases nonempty : schemas' = []
  · subst nonempty
    exact ⟨_, generate_nil⟩
  · refine ⟨_, (generate_eq_ok_iff nonempty).mpr ⟨fun strict => ?_, ?_, rfl⟩⟩
    · exact checkListing_eq_ok.mpr ((checkListing_eq_ok.mp (accepted strict)).reordered order)
    · exact Job.faultless_reordered order distinct faultless

/-- Behind an opening text an output has the declarations of a listing, each schema declared by `declare`. -/
structure Output.Follows (o : Output) (opening : String) (declare : EntitySchema → Option Interface)
    (settings : Settings) (schemas : List EntitySchema) : Prop where
  code : o.code =
    opening ++ "\n".intercalate ((declarationsBy declare settings schemas).map Declaration.render)
  interfaces : o.interfaces = listedIds schemas

theorem Output.follows_nil (declare : EntitySchema → Option Interface) (settings : Settings) :
    (Output.empty.pushError .noSchemas).Follows "" declare settings [] where
  code := by
    have none : declarationsBy declare settings [] = [] := by simp [declarationsBy, listedIds]
    rw [none]
    rfl
  interfaces := rfl

theorem output_follows (distinct : (listedIds schemas).Nodup)
    (faultless : (Job.ofListing schemas attributes settings).Faultless) :
    (Job.ofListing schemas attributes settings).output.Follows
      ((settings.banner.map Banner.render).getD "")
      (Job.ofListing schemas attributes settings).declare settings schemas where
  code := by
    rw [Job.output_code_declarations, Job.declarations_by_schema distinct faultless]
    rfl
  interfaces := Job.output_ids faultless

/-- Where the ids of a listing are distinct, a pass succeeds in every order of the listing or in none. Each
schema is declared in the same way in both, under its id; the interfaces, the subtypes and the entries of the
entity type map stand in the order of their schemas. The soft errors are the same but for positions. -/
theorem generate_reordered (attributes : List Attribute) (settings : Settings) (order : schemas.Perm schemas')
    (distinct : (listedIds schemas).Nodup) :
    ((∃ o, generate schemas attributes settings = .ok o) ↔
      ∃ o', generate schemas' attributes settings = .ok o') ∧
    ∀ o o', generate schemas attributes settings = .ok o → generate schemas' attributes settings = .ok o' →
      ∃ opening declare, declare = (Job.ofListing schemas attributes settings).declare ∧
        declare = (Job.ofListing schemas' attributes settings).declare ∧
        (∀ s ∈ schemas, (declare s).map Interface.id = s.id?) ∧
        o.Follows opening declare settings schemas ∧ o'.Follows opening declare settings schemas' ∧
        (o.errors.map SoftError.unplaced).Perm (o'.errors.map SoftError.unplaced) := by
  have distinct' := (listedIds_reordered order).nodup_iff.mp distinct
  refine ⟨⟨?_, ?_⟩, fun o o' done done' => ?_⟩
  · rintro ⟨o, done⟩
    exact generate_succeeds_reordered order distinct done
  · rintro ⟨o', done⟩
    exact generate_succeeds_reordered order.symm distinct' done
  by_cases nonempty : schemas = []
  · subst nonempty
    obtain rfl := order.nil_eq
    obtain rfl : o = o' := Except.ok.inj (done.symm.trans done')
    obtain rfl : Output.empty.pushError .noSchemas = o := Except.ok.inj done
    have follows := Output.follows_nil (Job.ofListing [] attributes settings).declare settings
    exact ⟨"", _, rfl, rfl, fun _ absent => absurd absent List.not_mem_nil, follows, follows, .refl _⟩
  · have nonempty' : schemas' ≠ [] := fun none => nonempty (none ▸ order).eq_nil
    obtain ⟨_, faultless, rfl⟩ := generate_eq_ok nonempty done
    obtain ⟨_, faultless', rfl⟩ := generate_eq_ok nonempty' done'
    have same : (Job.ofListing schemas attributes settings).declare =
        (Job.ofListing schemas' attributes settings).declare := Job.declare_reordered order distinct
    refine ⟨_, _, rfl, same, fun s => Job.declare_id faultless, output_follows distinct faultless, ?_,
      Job.errors_reordered order distinct⟩
    rw [same]
    exact output_follows distinct' faultless'

/-- A listing with an entry that lacks an id, forwards and backwards. -/
theorem layered_reversed : ∃ o o',
    generate (.empty :: layered) [] .standard = .ok o ∧
    generate (EntitySchema.empty :: layered).reverse [] .standard = .ok o' ∧
    o.errors = [.missingId 0] ∧ o'.errors = [.missingId 3] ∧
    ∃ opening declare, o.Follows opening declare .standard (.empty :: layered) ∧
      o'.Follows opening declare .standard (EntitySchema.empty :: layered).reverse := by
  have done : generate (.empty :: layered) [] .standard = .ok _ := rfl
  have done' : generate (EntitySchema.empty :: layered).reverse [] .standard = .ok _ := rfl
  have order : (EntitySchema.empty :: layered).Perm (EntitySchema.empty :: layered).reverse :=
    (List.reverse_perm _).symm
  obtain ⟨_, reordered⟩ := generate_reordered [] .standard order (by decide)
  obtain ⟨opening, declare, _, _, _, follows, follows', _⟩ := reordered _ _ done done'
  exact ⟨_, _, done, done', rfl, rfl, opening, declare, follows, follows'⟩

end EntityTypings
