import EntityTypings.Proofs.First
import EntityTypings.Proofs.Generation.Comparison
import EntityTypings.Proofs.Generation.InterfaceMembers

/-!
# The failure of a pass

A pass that is not strict stops at the first property, by the position of its entry and then by its name, that an
interface would declare itself and that has a fault: `generate_fails_at_first`.
-/

namespace EntityTypings

open TypeScript

/-- An entry with an id declares a property itself that has a fault. -/
def Job.StopsAt (j : Job) (place : Nat × String) (failure : MappingFailure) : Prop :=
  ∃ e id p, j.catalog.entries[place.1]? = some e ∧ e.id? = some id ∧ j.catalog.Selects e place.2 p ∧
    Fault ⟨id, place.2⟩ p failure

/-- The order in which a pass meets properties: by the position of the entry, then by name. -/
def Job.passOrder : Nat × String → Nat × String → Prop := Prod.Lex (· < ·) (· < ·)

theorem Job.passOrder_asymm {a b : Nat × String} (less : passOrder a b) : ¬passOrder b a := by
  unfold passOrder at *
  rw [Prod.lex_def] at *
  rcases less with less | ⟨same, less⟩
  · rintro (less' | ⟨same', _⟩) <;> omega
  · rintro (less' | ⟨_, less'⟩)
    · omega
    · exact String.lt_asymm less less'

variable {j : Job} {schemas : List EntitySchema} {attributes : List Attribute} {settings : Settings}

namespace Job

theorem refusal?_mapProperties (j : Job) (id : String) (s : EntitySchema) (properties : List (String × Property)) :
    refusal? (j.mapProperties id s properties).2 =
      properties.findSome? fun entry => refusal? (mapProperty ⟨id, entry.1⟩ entry.2) := by
  induction properties with
  | nil => rfl
  | cons entry rest ih =>
    unfold mapProperties
    rw [List.findSome?_cons]
    cases mapProperty ⟨id, entry.1⟩ entry.2 with
    | error failure => rfl
    | ok outcome =>
      cases outcome with
      | skipped e => exact ih
      | typed t => exact (refusal?_map _ _).trans ih

theorem report_failure (j : Job) (index : Nat) (e : CatalogEntry) :
    (j.report index e).failure? = e.id?.bind fun id => refusal? (j.ownMembers id e).2 := by
  have failure (r : Report) : r.failure? = refusal? r.result := by
    unfold Report.failure?
    cases r.result <;> rfl
  rw [failure, report]
  cases e.id? with
  | none => rfl
  | some id => exact refusal?_map _ (j.ownMembers id e).2

theorem report_finds (j : Job) (index : Nat) (e : CatalogEntry) : Finds passOrder (fun place failure =>
    place.1 = index ∧ ∃ id p, e.id? = some id ∧ j.catalog.Selects e place.2 p ∧ Fault ⟨id, place.2⟩ p failure)
    (j.report index e).failure? := by
  rw [report_failure]
  cases named : e.id? with
  | none =>
    rintro _ _ ⟨_, _, _, absent, _⟩
    cases absent
  | some id =>
    rw [Option.bind_some, ownMembers, refusal?_mapProperties]
    have each (entry : String × Property) : Finds passOrder _ (refusal? (mapProperty ⟨id, entry.1⟩ entry.2)) :=
      Finds.single (fun _ => (index, entry.1)) _
    refine (Finds.findSome? (fun entry _ => each entry) ?_).congr fun place failure => ?_
    · refine (j.catalog.ownProperties_ascending e).imp fun less => ?_
      rintro _ _ _ _ ⟨rfl, _⟩ ⟨rfl, _⟩
      exact .right _ less
    · simp only [refusal?_eq_some, mapProperty_eq_error]
      constructor
      · rintro ⟨⟨name, p⟩, listed, rfl, fault⟩
        exact ⟨rfl, id, p, rfl, Catalog.selects_iff.mpr listed, fault⟩
      · obtain ⟨i, name⟩ := place
        rintro ⟨rfl, _, p, same, selected, fault⟩
        cases same
        exact ⟨(name, p), Catalog.selects_iff.mp selected, rfl, fault⟩

theorem firstFailure?_finds (j : Job) : Finds passOrder j.StopsAt (firstFailure? j.reports) := by
  have search : (j.catalog.entries.zipIdx.findSome? fun x => (j.report x.2 x.1).failure?) =
      firstFailure? j.reports := by
    rw [firstFailure?_eq_findSome?, reports, List.mapIdx_eq_zipIdx_map, List.findSome?_map]
    rfl
  rw [← search]
  refine (Finds.findSome?_zipIdx (fun index e _ => j.report_finds index e) ?_).congr fun place failure => ?_
  · rintro i k x y a b c d less ⟨rfl, _⟩ ⟨rfl, _⟩
    exact (Prod.lex_def).mpr (.inl less)
  · unfold StopsAt
    constructor
    · rintro ⟨_, e, listed, rfl, id, p, here⟩
      exact ⟨e, id, p, listed, here⟩
    · rintro ⟨e, id, p, listed, here⟩
      exact ⟨_, e, listed, rfl, id, p, here⟩

end Job

/-- A pass that is not strict fails exactly if an entry with an id declares a property itself that has a fault, and
then with the fault of the first such property. So nothing else, such as a property that is inherited, can stop it. -/
theorem generate_fails_at_first (nonempty : schemas ≠ []) (lenient : settings.strict = false) :
    ((∃ failure, generate schemas attributes settings = .error failure) ↔
      ∃ place failure, (Job.ofListing schemas attributes settings).StopsAt place failure) ∧
    ∀ failure, generate schemas attributes settings = .error failure ↔ ∃ place fault, failure = .mapping fault ∧
      First Job.passOrder (Job.ofListing schemas attributes settings).StopsAt place fault := by
  have search := (Job.ofListing schemas attributes settings).firstFailure?_finds
  have accepted : settings.strict = true → checkListing schemas = .ok () := by simp [lenient]
  rw [generate_of_accepted nonempty accepted]
  cases met : firstFailure? (Job.ofListing schemas attributes settings).reports with
  | none =>
    have faultless := search.eq_none_iff.mp met
    refine ⟨?_, fun failure => ?_⟩
    · simpa using faultless
    · constructor
      · intro failed
        cases failed
      · rintro ⟨place, fault, _, first⟩
        exact absurd first.found (faultless place fault)
  | some fault =>
    obtain ⟨place, first⟩ := (search.eq_some_iff Job.passOrder_asymm).mp met
    refine ⟨iff_of_true ⟨_, rfl⟩ ⟨place, fault, first.found⟩, fun failure => ?_⟩
    constructor
    · rintro ⟨⟩
      exact ⟨place, fault, rfl, first⟩
    · rintro ⟨place', fault', rfl, first'⟩
      rw [first.unique Job.passOrder_asymm first']

/-- A schema without an id, and one with a property that is internal and two that have faults. -/
def faultyContext : List EntitySchema :=
  [EntitySchema.empty.addProperty "size" (.typed "float"),
    (((EntitySchema.named "Context").addProperty "zoom" (.typed "float")).addProperty "tags" (.typed "array")).addProperty
      "_cache" (.typed "float")]

theorem faultyContext_fails_at_tags :
    faultyContext ≠ [] ∧ Settings.standard.strict = false ∧
    generate faultyContext [] .standard = .error (.mapping (.missingItems ⟨"Context", "tags"⟩)) ∧
    ∃ place, First Job.passOrder (Job.ofListing faultyContext [] .standard).StopsAt place
      (.missingItems ⟨"Context", "tags"⟩) := by
  have failed : generate faultyContext [] .standard = .error (.mapping (.missingItems ⟨"Context", "tags"⟩)) := rfl
  obtain ⟨place, fault, same, first⟩ :=
    ((generate_fails_at_first (List.cons_ne_nil _ _) rfl).2 (.mapping (.missingItems ⟨"Context", "tags"⟩))).mp failed
  cases same
  exact ⟨List.cons_ne_nil _ _, rfl, failed, place, first⟩

end EntityTypings
