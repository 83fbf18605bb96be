import EntityTypings.Proofs.Generation.Reordering
import EntityTypings.Proofs.Inheritance.Insertion

/-!
# Passes over a listing with one more schema

What a pass declares are three lists that follow the listing: the interfaces, the subtypes of the typed context
and the entries of the entity type map. An unrelated schema adds its own part of them at its place, and leaves
the other parts as they are: `Job.contents_inserted`. `generate_inserted` says the same of outputs.
-/

namespace EntityTypings

open TypeScript

/-- What a pass declares, whether or not it writes the declarations behind the interfaces. -/
structure Contents where
  interfaces : List Interface
  subtypes : List String
  entities : List String

namespace Contents

instance : Append Contents :=
  ⟨fun a b => ⟨a.interfaces ++ b.interfaces, a.subtypes ++ b.subtypes, a.entities ++ b.entities⟩⟩

def declarations (c : Contents) (typed map : Bool) : List Declaration :=
  c.interfaces.map .interface ++ (if typed then [.subtypeUnion c.subtypes] else []) ++
    (if map ∧ c.entities ≠ [] then [.entityTypeMap c.entities] else [])

theorem append_eq (a b : Contents) :
    a ++ b = ⟨a.interfaces ++ b.interfaces, a.subtypes ++ b.subtypes, a.entities ++ b.entities⟩ := rfl

theorem append_none (a : Contents) : a ++ (⟨[], [], []⟩ : Contents) = a := by
  simp only [append_eq, List.append_nil]

end Contents

/-- A soft error as it is reported one position further on. -/
def SoftError.later : SoftError → SoftError
  | .missingId index => .missingId (index + 1)
  | err => err

variable {before after : List EntitySchema} {s t : EntitySchema} {attributes : List Attribute}
  {settings : Settings} {e : CatalogEntry}

/-! ### Names put into a list -/

/-- The id of a schema as a subtype of the typed context. -/
def EntitySchema.subtype? (s : EntitySchema) : Option String := if s.specialises then s.id? else none

theorem EntitySchema.id?_of_subtype? {id : String} (named : s.subtype? = some id) : s.id? = some id := by
  unfold subtype? at named
  split at named
  · exact named
  · cases named

theorem Catalog.aliasIds_eq (schemas : List EntitySchema) :
    (ofSchemas schemas).aliasIds = schemas.filterMap EntitySchema.subtype? := by
  rw [aliasIds_ofSchemas, listedIds, List.filterMap_filter]
  rfl

theorem removeAll_of_disjoint {ids others : List String} (apart : ∀ id ∈ ids, id ∉ others) :
    ids.removeAll others = ids := by
  refine List.filter_eq_self.mpr fun id listed => ?_
  simpa using apart id listed

theorem eraseDups_ne_nil {ids : List String} : ids.eraseDups ≠ [] ↔ ids ≠ [] := by
  cases ids with
  | nil => exact Iff.rfl
  | cons id rest => simp [List.eraseDups_cons]

/-- A new name stays where it was put when repetitions are left out. -/
theorem eraseDups_inserted (name? : EntitySchema → Option String)
    (fresh : ∀ name, name? s = some name → name ∉ (before ++ after).filterMap name?) : ∃ first last,
      ((before ++ after).filterMap name?).eraseDups = first ++ last ∧
      ((before ++ s :: after).filterMap name?).eraseDups = first ++ (name? s).toList ++ last := by
  have without : ((before ++ after).filterMap name?).eraseDups = (before.filterMap name?).eraseDups ++
      ((after.filterMap name?).removeAll (before.filterMap name?)).eraseDups := by
    rw [List.filterMap_append, List.eraseDups_append]
  refine ⟨_, _, without, ?_⟩
  cases named : name? s with
  | none =>
    have skipped : (before ++ s :: after).filterMap name? = (before ++ after).filterMap name? := by
      rw [List.filterMap_append, List.filterMap_cons_none named, List.filterMap_append]
    rw [skipped, without, Option.toList_none, List.append_nil]
  | some name =>
    have absent := fresh name named
    rw [List.filterMap_append, List.mem_append, not_or] at absent
    have alone : [name].removeAll (before.filterMap name?) = [name] :=
      removeAll_of_disjoint fun other listed => List.mem_singleton.mp listed ▸ absent.1
    have others : ((after.filterMap name?).removeAll (before.filterMap name?)).removeAll [name] =
        (after.filterMap name?).removeAll (before.filterMap name?) := by
      refine removeAll_of_disjoint fun other listed again => ?_
      exact absent.2 (List.mem_singleton.mp again ▸ (List.mem_filter.mp listed).1)
    have split : (name :: after.filterMap name?).removeAll (before.filterMap name?) =
        [name] ++ (after.filterMap name?).removeAll (before.filterMap name?) := by
      rw [← List.singleton_append, List.removeAll, List.filter_append]
      exact congrArg (· ++ _) alone
    rw [List.filterMap_append, List.filterMap_cons_some named, List.eraseDups_append, split,
      List.eraseDups_append, others, Option.toList_some, List.append_assoc]
    rfl

namespace Job

/-! ### Soft errors by position -/

/-- The soft errors of entries that stand at positions from `start` on. -/
def errorsFrom (j : Job) (start : Nat) (entries : List CatalogEntry) : List SoftError :=
  (entries.zipIdx start).flatMap fun x => (j.report x.2 x.1).skipped

theorem output_errorsFrom (j : Job) : j.output.errors = j.errorsFrom 0 j.catalog.entries := by
  rw [output_errors, reports, List.mapIdx_eq_zipIdx_map, List.flatMap_map]
  rfl

theorem errorsFrom_append (j : Job) (start : Nat) (first last : List CatalogEntry) :
    j.errorsFrom start (first ++ last) =
      j.errorsFrom start first ++ j.errorsFrom (start + first.length) last := by
  rw [errorsFrom, List.zipIdx_append, List.flatMap_append]
  rfl

theorem errorsFrom_cons (j : Job) (start : Nat) (e : CatalogEntry) (rest : List CatalogEntry) :
    j.errorsFrom start (e :: rest) = (j.report start e).skipped ++ j.errorsFrom (start + 1) rest := by
  rw [errorsFrom, List.zipIdx_cons, List.flatMap_cons]
  rfl

theorem mapProperties_later (j : Job) (id : String) (s : EntitySchema) (properties : List (String × Property)) :
    (j.mapProperties id s properties).1.map SoftError.later = (j.mapProperties id s properties).1 := by
  induction properties with
  | nil => rfl
  | cons entry rest ih =>
    obtain ⟨name, p⟩ := entry
    unfold mapProperties
    cases mapped : mapProperty ⟨id, name⟩ p with
    | error failure => rfl
    | ok outcome =>
      cases outcome with
      | typed type => exact ih
      | skipped err =>
        have about := mapProperty_skipped_site mapped
        have unmoved : err.later = err := by
          cases err with
          | missingId index => cases about
          | _ => rfl
        rw [List.map_cons, ih, unmoved]

theorem report_later (j : Job) (index : Nat) (e : CatalogEntry) :
    (j.report (index + 1) e).skipped = (j.report index e).skipped.map SoftError.later := by
  unfold report
  cases e.id? with
  | none => rfl
  | some id => exact (mapProperties_later j id e.schema _).symm

theorem errorsFrom_later (j : Job) (start : Nat) (entries : List CatalogEntry) :
    j.errorsFrom (start + 1) entries = (j.errorsFrom start entries).map SoftError.later := by
  induction entries generalizing start with
  | nil => rfl
  | cons e rest ih => rw [errorsFrom_cons, errorsFrom_cons, List.map_append, report_later, ih]

/-! ### Entries of the listing -/

theorem report_inserted (unrelated : s.UnrelatedTo (before ++ after))
    (listed : e ∈ (Catalog.ofSchemas (before ++ after)).entries) (index : Nat) :
    (Job.ofListing (before ++ s :: after) attributes settings).report index e =
      (Job.ofListing (before ++ after) attributes settings).report index e := by
  apply report_congr
  case docs => rfl
  case narrowing => rw [narrowing, narrowing, Catalog.attributeElement?_inserted unrelated]
  case own => exact Catalog.ownProperties_inserted unrelated listed

theorem declare_inserted (unrelated : s.UnrelatedTo (before ++ after)) (listed : t ∈ before ++ after) :
    (Job.ofListing (before ++ s :: after) attributes settings).declare t =
      (Job.ofListing (before ++ after) attributes settings).declare t := by
  have entry : ⟨t, parentsIn (before ++ after) t⟩ ∈ (Catalog.ofSchemas (before ++ after)).entries :=
    List.mem_map_of_mem listed
  rw [declare, declare, Catalog.schemas_ofSchemas, Catalog.schemas_ofSchemas, unrelated.parentsIn_eq listed,
    ← interface?_report _ 0, ← interface?_report _ 0, report_inserted unrelated entry]

theorem errorsFrom_inserted (unrelated : s.UnrelatedTo (before ++ after)) {part : List CatalogEntry}
    (within : part ⊆ (Catalog.ofSchemas (before ++ after)).entries) (start : Nat) :
    (Job.ofListing (before ++ s :: after) attributes settings).errorsFrom start part =
      (Job.ofListing (before ++ after) attributes settings).errorsFrom start part := by
  refine List.flatMap_congr fun x listed => ?_
  rw [report_inserted unrelated (within (List.fst_mem_of_mem_zipIdx listed))]

theorem faultless_inserted (unrelated : s.UnrelatedTo (before ++ after)) :
    (Job.ofListing (before ++ s :: after) attributes settings).Faultless ↔
      (Job.ofListing (before ++ after) attributes settings).Faultless ∧
        ∀ id, s.id? = some id → EntityTypings.Faultless id
          ((Catalog.ofSchemas (before ++ s :: after)).ownProperties
            ⟨s, parentsIn (before ++ s :: after) s⟩) := by
  have mem_iff : ∀ e, e ∈ (Catalog.ofSchemas (before ++ s :: after)).entries ↔
      e = ⟨s, parentsIn (before ++ s :: after) s⟩ ∨ e ∈ (Catalog.ofSchemas (before ++ after)).entries := by
    intro e
    rw [Catalog.entries_inserted unrelated, Catalog.entries_append]
    simp only [List.mem_append, List.mem_cons]
    exact or_left_comm
  constructor
  · intro faultless
    refine ⟨fun e listed id named => ?_, fun id named => ?_⟩
    · rw [← Catalog.ownProperties_inserted unrelated listed]
      exact faultless e ((mem_iff e).mpr (.inr listed)) id named
    · exact faultless _ ((mem_iff _).mpr (.inl rfl)) id named
  · rintro ⟨faultless, own⟩ e listed id named
    rcases (mem_iff e).mp listed with rfl | listed
    · exact own id named
    · have same := Catalog.ownProperties_inserted unrelated listed
      exact same ▸ faultless e listed id named

/-! ### Contents -/

def contents (j : Job) : Contents :=
  ⟨j.interfaces, subtypes j.catalog, (j.interfaces.map Interface.id).eraseDups⟩

/-- The part of it that a schema has by itself. -/
def contentsOf (j : Job) (s : EntitySchema) : Contents :=
  ⟨(j.declare s).toList, s.subtype?.toList, s.id?.toList⟩

theorem declarations_contents (j : Job) : j.declarations =
    j.contents.declarations j.catalog.typedContext?.isSome j.settings.emitEntityTypeMap := by
  unfold declarations Contents.declarations contents
  simp only [eraseDups_ne_nil]

theorem declare_of_unnamed {j : Job} (unnamed : s.id? = none) : j.declare s = none := by
  have nameless : CatalogEntry.id? ⟨s, parentsIn j.catalog.schemas s⟩ = none := unnamed
  rw [declare, interface?, nameless]
  rfl

theorem contentsOf_unnamed {j : Job} (unnamed : s.id? = none) : j.contentsOf s = ⟨[], [], []⟩ := by
  simp [contentsOf, declare_of_unnamed unnamed, EntitySchema.subtype?, unnamed]

theorem declared_ids {schemas part : List EntitySchema}
    (faultless : (Job.ofListing schemas attributes settings).Faultless) (within : part ⊆ schemas) :
    (part.filterMap (Job.ofListing schemas attributes settings).declare).map Interface.id = listedIds part := by
  rw [List.map_filterMap]
  refine List.filterMap_congr fun t listed => ?_
  exact declare_id faultless (within listed)

theorem interfaces_inserted (unrelated : s.UnrelatedTo (before ++ after)) :
    (Job.ofListing (before ++ s :: after) attributes settings).interfaces =
      before.filterMap (Job.ofListing (before ++ after) attributes settings).declare ++
        ((Job.ofListing (before ++ s :: after) attributes settings).declare s).toList ++
        after.filterMap (Job.ofListing (before ++ after) attributes settings).declare := by
  have kept {part : List EntitySchema} (within : part ⊆ before ++ after) :
      part.filterMap (Job.ofListing (before ++ s :: after) attributes settings).declare =
        part.filterMap (Job.ofListing (before ++ after) attributes settings).declare := by
    refine List.filterMap_congr fun t listed => ?_
    exact declare_inserted unrelated (within listed)
  rw [interfaces_by_schema, List.filterMap_append, List.filterMap_cons,
    kept (List.subset_append_left before after), kept (List.subset_append_right before after),
    List.append_assoc]
  cases (Job.ofListing (before ++ s :: after) attributes settings).declare s <;> rfl

theorem contents_inserted (unrelated : s.UnrelatedTo (before ++ after))
    (faultless : (Job.ofListing (before ++ s :: after) attributes settings).Faultless) :
    ∃ first last : Contents,
      (Job.ofListing (before ++ after) attributes settings).contents = first ++ last ∧
      (Job.ofListing (before ++ s :: after) attributes settings).contents =
        first ++ (Job.ofListing (before ++ s :: after) attributes settings).contentsOf s ++ last ∧
      first.interfaces.map Interface.id = listedIds before ∧
      last.interfaces.map Interface.id = listedIds after := by
  have others_faultless := ((faultless_inserted unrelated).mp faultless).1
  have fresh_id : ∀ id, s.id? = some id → id ∉ (before ++ after).filterMap EntitySchema.id? :=
    fun id named => (unrelated id named).2.1
  have fresh_subtype : ∀ id, s.subtype? = some id → id ∉ (before ++ after).filterMap EntitySchema.subtype? := by
    intro id named listed
    obtain ⟨t, member, other⟩ := List.mem_filterMap.mp listed
    have named := EntitySchema.id?_of_subtype? named
    exact fresh_id id named (List.mem_filterMap.mpr ⟨t, member, EntitySchema.id?_of_subtype? other⟩)
  obtain ⟨first_entities, last_entities, entities, entities'⟩ := eraseDups_inserted _ fresh_id
  obtain ⟨first_subtypes, last_subtypes, subtypes, subtypes'⟩ := eraseDups_inserted _ fresh_subtype
  refine ⟨⟨before.filterMap (Job.ofListing (before ++ after) attributes settings).declare,
      first_subtypes, first_entities⟩,
    ⟨after.filterMap (Job.ofListing (before ++ after) attributes settings).declare,
      last_subtypes, last_entities⟩, ?_, ?_,
    declared_ids others_faultless (List.subset_append_left before after),
    declared_ids others_faultless (List.subset_append_right before after)⟩
  · rw [contents, interfaces_ids others_faultless, interfaces_by_schema, TypeScript.subtypes,
      Catalog.aliasIds_eq, listedIds, subtypes, entities, List.filterMap_append]
    rfl
  · rw [contents, interfaces_ids faultless, interfaces_inserted unrelated, TypeScript.subtypes,
      Catalog.aliasIds_eq, listedIds, subtypes', entities']
    rfl

end Job

/-- Behind the banner an output has the declarations of these contents. -/
structure Output.Shows (o : Output) (settings : Settings) (typed : Bool) (c : Contents) : Prop where
  code : o.code = (settings.banner.map Banner.render).getD "" ++
    "\n".intercalate ((c.declarations typed settings.emitEntityTypeMap).map Declaration.render)
  interfaces : o.interfaces = c.interfaces.map Interface.id

theorem Job.output_shows (j : Job) : j.output.Shows j.settings j.catalog.typedContext?.isSome j.contents where
  code := by
    rw [output_code_declarations, declarations_contents]
    rfl
  interfaces := output_interfaces j

theorem errors_inserted (unrelated : s.UnrelatedTo (before ++ after)) : ∃ early late,
    (Job.ofListing (before ++ after) attributes settings).output.errors = early ++ late ∧
    (Job.ofListing (before ++ s :: after) attributes settings).output.errors = early ++
      ((Job.ofListing (before ++ s :: after) attributes settings).report before.length
        ⟨s, parentsIn (before ++ s :: after) s⟩).skipped ++ late.map SoftError.later := by
  have without : (Job.ofListing (before ++ after) attributes settings).output.errors =
      (Job.ofListing (before ++ after) attributes settings).errorsFrom 0
        (Catalog.entriesIn (before ++ after) before) ++
      (Job.ofListing (before ++ after) attributes settings).errorsFrom before.length
        (Catalog.entriesIn (before ++ after) after) := by
    rw [Job.output_errorsFrom, Catalog.entries_append, Job.errorsFrom_append, Catalog.entriesIn,
      List.length_map, Nat.zero_add]
  have within_before : Catalog.entriesIn (before ++ after) before ⊆ (Catalog.ofSchemas (before ++ after)).entries :=
    List.map_subset _ (List.subset_append_left before after)
  have within_after : Catalog.entriesIn (before ++ after) after ⊆ (Catalog.ofSchemas (before ++ after)).entries :=
    List.map_subset _ (List.subset_append_right before after)
  refine ⟨_, _, without, ?_⟩
  rw [Job.output_errorsFrom, Catalog.entries_inserted unrelated, Job.errorsFrom_append, Job.errorsFrom_cons,
    Job.errorsFrom_inserted unrelated within_before, Job.errorsFrom_inserted unrelated within_after,
    Job.errorsFrom_later, Nat.zero_add, Catalog.entriesIn, List.length_map, List.append_assoc]

/-- The second output has the declarations and the soft errors of the first one, and some more between those of
the two parts of a listing. -/
structure Output.Gains (o o' : Output) (settings : Settings) (before after : List EntitySchema)
    (own : Contents) (skipped : List SoftError) : Prop where
  declared : ∃ typed, ∃ first last : Contents, o.Shows settings typed (first ++ last) ∧
    o'.Shows settings typed (first ++ own ++ last) ∧
    first.interfaces.map Interface.id = listedIds before ∧ last.interfaces.map Interface.id = listedIds after
  reported : ∃ early late, o.errors = early ++ late ∧
    o'.errors = early ++ skipped ++ late.map SoftError.later

theorem output_gains (unrelated : s.UnrelatedTo (before ++ after))
    (faultless : (Job.ofListing (before ++ s :: after) attributes settings).Faultless) :
    (Job.ofListing (before ++ after) attributes settings).output.Gains
      (Job.ofListing (before ++ s :: after) attributes settings).output settings before after
      ((Job.ofListing (before ++ s :: after) attributes settings).contentsOf s)
      ((Job.ofListing (before ++ s :: after) attributes settings).report before.length
        ⟨s, parentsIn (before ++ s :: after) s⟩).skipped where
  declared := by
    obtain ⟨first, last, contents, contents', ids⟩ := Job.contents_inserted unrelated faultless
    refine ⟨_, first, last, contents ▸ Job.output_shows _, ?_, ids⟩
    have shows := Job.output_shows (.ofListing (before ++ s :: after) attributes settings)
    rw [contents', Catalog.typedContext?_inserted unrelated] at shows
    exact shows
  reported := errors_inserted unrelated

theorem Output.Gains.unchanged {o o' : Output} {skipped : List SoftError}
    (gains : o.Gains o' settings before after ⟨[], [], []⟩ skipped) :
    o'.code = o.code ∧ o'.interfaces = o.interfaces := by
  obtain ⟨typed, first, last, shows, shows', _⟩ := gains.declared
  rw [Contents.append_none] at shows'
  exact ⟨shows'.code.trans shows.code.symm, shows'.interfaces.trans shows.interfaces.symm⟩

/-- Putting an unrelated schema anywhere into a listing is a local change, unless inconsistent listings are
refused. If the pass succeeds with the schema, then it does so without; the schema adds its own interface, subtype
and entry at its place, and its own soft errors. Nothing but positions in soft errors changes otherwise. A schema
without an id adds one soft error and nothing else, whatever its properties are. -/
theorem generate_inserted (attributes : List Attribute) (nonempty : before ++ after ≠ [])
    (lenient : settings.strict = false) (unrelated : s.UnrelatedTo (before ++ after)) :
    (∀ o', generate (before ++ s :: after) attributes settings = .ok o' →
      ∃ o, generate (before ++ after) attributes settings = .ok o ∧
        ∃ j own, j = Job.ofListing (before ++ s :: after) attributes settings ∧ own = j.contentsOf s ∧
          own.interfaces.map Interface.id = s.id?.toList ∧
          o.Gains o' settings before after own
            (j.report before.length ⟨s, parentsIn (before ++ s :: after) s⟩).skipped) ∧
    (s.id? = none →
      ((∃ o, generate (before ++ after) attributes settings = .ok o) ↔
        ∃ o', generate (before ++ s :: after) attributes settings = .ok o') ∧
      ∀ o o', generate (before ++ after) attributes settings = .ok o →
        generate (before ++ s :: after) attributes settings = .ok o' →
          o'.code = o.code ∧ o'.interfaces = o.interfaces ∧
          ∃ early late, o.errors = early ++ late ∧
            o'.errors = early ++ .missingId before.length :: late.map SoftError.later) := by
  have accepted {schemas : List EntitySchema} : settings.strict = true → checkListing schemas = .ok () := by
    intro strict
    rw [lenient] at strict
    cases strict
  have nonempty' : before ++ s :: after ≠ [] := by simp
  refine ⟨fun o' done' => ?_, fun unnamed => ⟨⟨?_, ?_⟩, fun o o' done done' => ?_⟩⟩
  · obtain ⟨_, faultless', rfl⟩ := generate_eq_ok nonempty' done'
    have faultless := ((Job.faultless_inserted unrelated).mp faultless').1
    have done : generate (before ++ after) attributes settings = .ok _ :=
      (generate_eq_ok_iff nonempty).mpr ⟨accepted, faultless, rfl⟩
    refine ⟨_, done, _, _, rfl, rfl, ?_, output_gains unrelated faultless'⟩
    have own_id := Job.declare_id faultless' (List.mem_append_right before List.mem_cons_self)
    rw [← own_id, Job.contentsOf]
    exact (Option.toList_map ..).symm
  · rintro ⟨o, done⟩
    obtain ⟨_, faultless, _⟩ := generate_eq_ok nonempty done
    have own : ∀ id, s.id? = some id → Faultless id
        ((Catalog.ofSchemas (before ++ s :: after)).ownProperties
          ⟨s, parentsIn (before ++ s :: after) s⟩) := by
      intro id named
      rw [unnamed] at named
      cases named
    have faultless' := (Job.faultless_inserted unrelated).mpr ⟨faultless, own⟩
    exact ⟨_, (generate_eq_ok_iff nonempty').mpr ⟨accepted, faultless', rfl⟩⟩
  · rintro ⟨o', done'⟩
    obtain ⟨_, faultless', _⟩ := generate_eq_ok nonempty' done'
    have faultless := ((Job.faultless_inserted unrelated).mp faultless').1
    exact ⟨_, (generate_eq_ok_iff nonempty).mpr ⟨accepted, faultless, rfl⟩⟩
  · obtain ⟨_, _, rfl⟩ := generate_eq_ok nonempty done
    obtain ⟨_, faultless', rfl⟩ := generate_eq_ok nonempty' done'
    have gains := output_gains unrelated faultless'
    rw [Job.contentsOf_unnamed unnamed] at gains
    have skipped : ((Job.ofListing (before ++ s :: after) attributes settings).report before.length
        ⟨s, parentsIn (before ++ s :: after) s⟩).skipped = [.missingId before.length] := by
      have nameless : CatalogEntry.id? ⟨s, parentsIn (before ++ s :: after) s⟩ = none := unnamed
      rw [Job.report, nameless]
    rw [skipped] at gains
    obtain ⟨code, interfaces⟩ := gains.unchanged
    obtain ⟨early, late, errors, errors'⟩ := gains.reported
    refine ⟨code, interfaces, early, late, errors, ?_⟩
    rw [errors', List.append_assoc, List.singleton_append]

/-- An alias with a base and a property that declares nothing. -/
def dualAsset : EntitySchema :=
  { (EntitySchema.named "Asset").addProperty "notes" .empty with
    mixin := some "Context", aliasFor := some (.bare "Task") }

/-- A schema without an id that no pass could declare. -/
def faultyNameless : EntitySchema := EntitySchema.empty.addProperty "tags" (.typed "datetime")

theorem layered_inserted :
    layered ++ [.empty] ≠ [] ∧ Settings.standard.strict = false ∧
    dualAsset.UnrelatedTo (layered ++ [.empty]) ∧ faultyNameless.id? = none ∧
    ∃ o own more o' o'', generate (layered ++ [.empty]) [] .standard = .ok o ∧
      generate (layered ++ dualAsset :: [.empty]) [] .standard = .ok o' ∧
      generate (layered ++ faultyNameless :: [.empty]) [] .standard = .ok o'' ∧
      o.Gains o' .standard layered [.empty] own more ∧ own.interfaces.map Interface.id = ["Asset"] ∧
      own.subtypes = ["Asset"] ∧ more = [.untypedProperty ⟨"Asset", "notes"⟩] ∧
      o''.code = o.code ∧ o''.errors = [.missingId 3, .missingId 4] := by
  have unrelated : dualAsset.UnrelatedTo (layered ++ [.empty]) := by
    intro id named
    obtain rfl : "Asset" = id := Option.some.inj named
    decide
  have nonempty : layered ++ [.empty] ≠ [] := by simp
  have lenient : Settings.standard.strict = false := rfl
  have nameless : faultyNameless.UnrelatedTo (layered ++ [.empty]) := .of_unnamed rfl
  obtain ⟨local_change, _⟩ := generate_inserted [] nonempty lenient unrelated
  obtain ⟨_, inert⟩ := generate_inserted [] nonempty lenient nameless
  obtain ⟨o, done, _, own, rfl, rfl, ids, gains⟩ := local_change _ rfl
  obtain ⟨_, same⟩ := inert rfl
  obtain ⟨code, _, _⟩ := same _ _ done rfl
  exact ⟨nonempty, lenient, unrelated, rfl, o, _, _, _, _, done, rfl, rfl, gains, ids, rfl, rfl, code, rfl⟩

end EntityTypings
