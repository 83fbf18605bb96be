import EntityTypings.Proofs.Generation.InterfaceMembers
import EntityTypings.Proofs.TypeScript.Gaps
import Mathlib.Data.List.Forall2

/-!
# What a pass leaves out

An output either declares an entry or reports it, and of a declared entry it reports the properties that have no
member: `Output.Accounts`. The soft errors of a pass are those of its entries, one entry after the other, and no
others: `errors_account`.
-/

namespace EntityTypings

open TypeScript

/-- Whether a soft error is about a schema without an id. -/
def SoftError.isMissingId : SoftError → Bool
  | .missingId _ => true
  | _ => false

/-- The soft errors about the entry at a position, for all that an output lacks of it. Those of a declared entry are
about the properties that it declares itself and that cannot be typed, in the order of their names. -/
inductive Output.Accounts (o : Output) (j : Job) (index : Nat) (e : CatalogEntry) : List SoftError → Prop where
  | unnamed (absent : e.id? = none) : Accounts o j index e [.missingId index]
  | declared {i : Interface} {gaps : List (String × SoftError)} (named : e.id? = some i.id)
      (made : j.interface? e = some i) (declares : o.Declares i) (ascending : Ascending gaps)
      (reported : ∀ name err, (name, err) ∈ gaps ↔ ∃ p, j.catalog.Selects e name p ∧ Gap ⟨i.id, name⟩ p err)
      (kept : ∀ name p, j.catalog.Selects e name p →
        ((∃ m ∈ i.members, m.name = name) ↔ ∀ err, (name, err) ∉ gaps)) :
      Accounts o j index e (gaps.map Prod.snd)

variable {j : Job} {e : CatalogEntry} {id : String} {o : Output} {schemas : List EntitySchema}
  {attributes : List Attribute} {settings : Settings}

theorem TypeScript.Gap.not_missingId {site : PropertySite} {p : Property} {err : SoftError} (gap : Gap site p err) :
    err.isMissingId = false := by
  cases gap <;> rfl

/-! ### One entry -/

theorem Catalog.Selects.unique {c : Catalog} {name : String} {p p' : Property} (selected : c.Selects e name p)
    (selected' : c.Selects e name p') : p = p' := by
  have listed : (name, p) ∈ c.ownProperties e := Catalog.selects_iff.mp selected
  have listed' : (name, p') ∈ c.ownProperties e := Catalog.selects_iff.mp selected'
  exact (Prod.mk.inj (List.inj_on_of_nodup_map (Job.ownNames_distinct c e) listed listed' rfl)).2

namespace Job

/-- The soft errors of an entry's properties, each with the name of its property. -/
def gaps (j : Job) (id : String) (e : CatalogEntry) : List (String × SoftError) :=
  (j.catalog.ownProperties e).filterMap fun entry => (skip? id entry).map (entry.1, ·)

theorem gaps_errors (j : Job) (id : String) (e : CatalogEntry) :
    (j.gaps id e).map Prod.snd = (j.catalog.ownProperties e).filterMap (skip? id) := by
  rw [gaps, List.map_filterMap]
  refine List.filterMap_congr fun entry _ => ?_
  cases skip? id entry <;> rfl

theorem gaps_ascending (j : Job) (id : String) (e : CatalogEntry) : Ascending (j.gaps id e) := by
  refine (j.catalog.ownProperties_ascending e).filterMap _ fun entry entry' less gap from' gap' from'' => ?_
  obtain ⟨_, _, rfl⟩ := Option.map_eq_some_iff.mp from'
  obtain ⟨_, _, rfl⟩ := Option.map_eq_some_iff.mp from''
  exact less

theorem mem_gaps {name : String} {err : SoftError} :
    (name, err) ∈ j.gaps id e ↔ ∃ p, j.catalog.Selects e name p ∧ Gap ⟨id, name⟩ p err := by
  rw [gaps, List.mem_filterMap]
  constructor
  · rintro ⟨entry, listed, left⟩
    obtain ⟨met, skipped, same⟩ := Option.map_eq_some_iff.mp left
    obtain ⟨rfl, rfl⟩ := Prod.mk.inj same
    exact ⟨entry.2, Catalog.selects_iff.mpr listed, mapProperty_eq_skipped.mp (skip?_eq_some.mp skipped)⟩
  · rintro ⟨p, selected, gap⟩
    refine ⟨(name, p), Catalog.selects_iff.mp selected, ?_⟩
    rw [skip?_eq_some.mpr (mapProperty_eq_skipped.mpr gap)]
    rfl

/-- No added member has the name of a property that an entry declares itself. -/
theorem added_not_selected {name : String} {p : Property} (selected : j.catalog.Selects e name p) :
    name ∉ (j.addedMembers id e).map Member.name := by
  rw [addedMembers_names]
  intro added
  rcases List.mem_append.mp added with narrowed | internal
  · split at narrowed
    next specialises => exact selected.unnarrowed ⟨specialises, List.mem_singleton.mp narrowed⟩
    · cases narrowed
  · have marked : ∀ name ∈ Dialect.metaMembers, name.toList.head? = some '_' := by decide
    exact selected.visible (marked name internal)

/-- Of a selected property there is a member exactly if there is no soft error. -/
theorem member_iff_no_gap {name : String} {p : Property}
    (faultless : EntityTypings.Faultless id (j.catalog.ownProperties e)) (selected : j.catalog.Selects e name p) :
    (∃ m ∈ (j.catalog.ownProperties e).filterMap (j.member? id e.schema) ++ j.addedMembers id e, m.name = name) ↔
      ∀ err, (name, err) ∉ j.gaps id e := by
  constructor
  · rintro ⟨m, member, rfl⟩ err left
    obtain ⟨q, selected', gap⟩ := mem_gaps.mp left
    rcases List.mem_append.mp member with own | added
    · obtain ⟨q', selected'', declares⟩ := ((accountsFor_of_faultless faultless).declared m).mp own
      have skipped := mapProperty_eq_skipped.mpr gap
      rw [selected'.unique selected'', declares.type] at skipped
      cases skipped
    · exact added_not_selected selected (List.mem_map_of_mem added)
  · intro unreported
    have listed : (name, p) ∈ j.catalog.ownProperties e := Catalog.selects_iff.mp selected
    cases mapped : mapProperty ⟨id, name⟩ p with
    | error failure => exact absurd (mapProperty_eq_error.mp mapped) (faultless _ listed failure)
    | ok outcome =>
      cases outcome with
      | skipped err => exact absurd (mem_gaps.mpr ⟨p, selected, mapProperty_eq_skipped.mp mapped⟩) (unreported err)
      | typed type =>
        refine ⟨j.propertyMember e.schema name p type, List.mem_append_left _ ?_, rfl⟩
        exact List.mem_filterMap.mpr ⟨_, listed, member?_eq_some.mpr ⟨type, mapped, rfl⟩⟩

/-- The output of a pass accounts for an entry with the soft errors of its report. -/
theorem output_accounts {index : Nat} (faultless : j.Faultless) (listed : e ∈ j.catalog.entries) :
    j.output.Accounts j index e (j.report index e).skipped := by
  cases named : e.id? with
  | none =>
    have skipped : (j.report index e).skipped = [.missingId index] := by
      rw [report, named]
    rw [skipped]
    exact .unnamed named
  | some id =>
    have sound := faultless e listed id named
    rw [skipped_of_faultless named sound, ← gaps_errors]
    have made := interface?_of_faultless named sound
    exact .declared named made (output_declares listed made) (gaps_ascending j id e) (fun _ _ => mem_gaps)
      (fun _ _ selected => member_iff_no_gap sound selected)

end Job

/-! ### All entries -/

/-- Every entry has its id among those of the output or a soft error of its own about that, and not both. -/
theorem Output.missing_counted {entries : List (CatalogEntry × Nat)} {told : List (List SoftError)}
    (each : List.Forall₂ (fun x errors => o.Accounts j x.2 x.1 errors) entries told) :
    (entries.filterMap fun x => x.1.id?).length + told.flatten.countP SoftError.isMissingId = entries.length := by
  induction each with
  | nil => rfl
  | cons accounts _ ih =>
    rw [List.filterMap_cons, List.flatten_cons, List.countP_append, List.length_cons]
    cases accounts with
    | unnamed absent =>
      have single (index : Nat) : [SoftError.missingId index].countP SoftError.isMissingId = 1 := rfl
      simp only [absent, single]
      omega
    | @declared i gaps named _ _ _ reported =>
      have others : (gaps.map Prod.snd).countP SoftError.isMissingId = 0 := by
        rw [List.countP_eq_zero]
        intro err told
        obtain ⟨gap, listed, rfl⟩ := List.mem_map.mp told
        obtain ⟨p, _, untyped⟩ := (reported gap.1 gap.2).mp listed
        simp [untyped.not_missingId]
      simp only [named, others, List.length_cons]
      omega

/-- The soft errors of an output are those about its entries, in listing order: that there is no id, or, by name, the
properties that the entry declares itself and that cannot be typed. An entry and a property of it that are left out
are reported once, and nothing else is. -/
theorem errors_account (nonempty : schemas ≠ []) (done : generate schemas attributes settings = .ok o) :
    (∃ told, o.errors = told.flatten ∧
      List.Forall₂ (fun x errors => o.Accounts (Job.ofListing schemas attributes settings) x.2 x.1 errors)
        (Catalog.ofSchemas schemas).entries.zipIdx told) ∧
    o.interfaces = listedIds schemas ∧
    o.interfaces.length + o.errors.countP SoftError.isMissingId = schemas.length := by
  obtain ⟨_, faultless, rfl⟩ := generate_eq_ok nonempty done
  have errors : (Job.ofListing schemas attributes settings).output.errors =
      ((Catalog.ofSchemas schemas).entries.zipIdx.map
        fun x => ((Job.ofListing schemas attributes settings).report x.2 x.1).skipped).flatten := by
    rw [Job.output_errors, Job.reports, List.mapIdx_eq_zipIdx_map, List.flatMap_map]
    rfl
  have each : List.Forall₂ (fun x errors => (Job.ofListing schemas attributes settings).output.Accounts
      (Job.ofListing schemas attributes settings) x.2 x.1 errors) (Catalog.ofSchemas schemas).entries.zipIdx
      ((Catalog.ofSchemas schemas).entries.zipIdx.map
        fun x => ((Job.ofListing schemas attributes settings).report x.2 x.1).skipped) := by
    rw [List.forall₂_map_right_iff, List.forall₂_same]
    exact fun x listed => Job.output_accounts faultless (List.fst_mem_of_mem_zipIdx listed)
  refine ⟨⟨_, errors, each⟩, Job.output_ids faultless, ?_⟩
  have ids : ((Catalog.ofSchemas schemas).entries.zipIdx.filterMap fun x => x.1.id?) = listedIds schemas := by
    rw [← Catalog.entries_ids, ← List.zipIdx_map_fst 0 (Catalog.ofSchemas schemas).entries, List.filterMap_map,
      List.zipIdx_map_fst]
    rfl
  have counted := Output.missing_counted each
  rw [ids, ← errors, List.length_zipIdx] at counted
  rw [Job.output_ids faultless, counted, Catalog.ofSchemas, List.length_map]

/-- A schema without an id, one with gaps and an internal property, and one that inherits a gap and has another. -/
def gappy : List EntitySchema :=
  [EntitySchema.empty.addProperty "size" .empty,
    (((EntitySchema.named "Context").addProperty "tags"
      { Property.typed "array" with items := some ⟨none, none⟩ }).addProperty "notes" .empty).addProperty
      "_cache" .empty |>.addProperty "name" (.typed "string"),
    { ((EntitySchema.named "Shot").addProperty "notes" .empty).addProperty "cuts" .empty with mixin := some "Context" }]

theorem gappy_accounted : ∃ o told, generate gappy [] .standard = .ok o ∧
    o.errors = [.missingId 0, .untypedProperty ⟨"Context", "notes"⟩, .untypedItems ⟨"Context", "tags"⟩,
      .untypedProperty ⟨"Shot", "cuts"⟩] ∧
    o.errors = told.flatten ∧
    List.Forall₂ (fun x errors => o.Accounts (Job.ofListing gappy [] .standard) x.2 x.1 errors)
      (Catalog.ofSchemas gappy).entries.zipIdx told ∧
    o.interfaces = ["Context", "Shot"] ∧ o.interfaces.length + o.errors.countP SoftError.isMissingId = 3 := by
  have done : generate gappy [] .standard = .ok _ := rfl
  obtain ⟨⟨told, errors, each⟩, interfaces, counted⟩ := errors_account (List.cons_ne_nil _ _) done
  exact ⟨_, told, done, rfl, errors, each, interfaces, counted⟩

end EntityTypings
