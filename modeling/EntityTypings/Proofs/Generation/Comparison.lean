import EntityTypings.Proofs.Generation.Outcome

/-!
# Passes over one listing

Neither the attributes nor the settings, strictness apart, have a part in what goes wrong. Passes over one listing
fail alike, or leave the same soft errors and declare the same ids: `generate_compared`.
-/

namespace EntityTypings

open TypeScript

/-- The failure that a report ended with. -/
def Report.failure? (r : Report) : Option MappingFailure :=
  match r.result with
  | .error failure => some failure
  | .ok _ => none

theorem firstFailure?_eq_findSome? (reports : List Report) :
    firstFailure? reports = reports.findSome? Report.failure? := by
  induction reports with
  | nil => rfl
  | cons r rest ih =>
    rw [List.findSome?_cons, firstFailure?, ih]
    unfold Report.failure?
    cases r.result <;> rfl

variable {j j' : Job} {schemas : List EntitySchema}

namespace Job

theorem mapProperties_outcome (j j' : Job) (id : String) (s : EntitySchema)
    (properties : List (String × Property)) :
    (j.mapProperties id s properties).1 = (j'.mapProperties id s properties).1 ∧
      ∀ failure, (j.mapProperties id s properties).2 = .error failure ↔
        (j'.mapProperties id s properties).2 = .error failure := by
  induction properties with
  | nil => exact ⟨rfl, fun _ => Iff.rfl⟩
  | cons entry rest ih =>
    obtain ⟨name, p⟩ := entry
    obtain ⟨skipped, failed⟩ := ih
    unfold mapProperties
    cases mapped : mapProperty ⟨id, name⟩ p with
    | error failure => exact ⟨rfl, fun _ => Iff.rfl⟩
    | ok outcome =>
      cases outcome with
      | skipped err => exact ⟨congrArg (err :: ·) skipped, failed⟩
      | typed type =>
        refine ⟨skipped, fun failure => ?_⟩
        have passed (ms : Except MappingFailure (List Member)) (m : Member) :
            ms.map (m :: ·) = .error failure ↔ ms = .error failure := by
          cases ms <;> simp [Except.map]
        exact (passed _ _).trans ((failed failure).trans (passed _ _).symm)

theorem report_outcome (same : j.catalog = j'.catalog) (index : Nat) (e : CatalogEntry) :
    (j.report index e).skipped = (j'.report index e).skipped ∧
      (j.report index e).failure? = (j'.report index e).failure? := by
  unfold report
  cases e.id? with
  | none => exact ⟨rfl, rfl⟩
  | some id =>
    obtain ⟨skipped, failed⟩ := mapProperties_outcome j j' id e.schema (j.catalog.ownProperties e)
    unfold ownMembers
    rw [← same]
    refine ⟨skipped, ?_⟩
    have failure (made : Except MappingFailure (List Member)) (complete : List Member → Option Interface)
        (errors : List SoftError) (f : MappingFailure) :
        Report.failure? ⟨errors, made.map complete⟩ = some f ↔ made = .error f := by
      cases made <;> simp [Report.failure?, Except.map]
    apply Option.ext
    intro f
    exact (failure _ _ _ f).trans ((failed f).trans (failure _ _ _ f).symm)

theorem firstFailure?_same (same : j.catalog = j'.catalog) :
    firstFailure? j.reports = firstFailure? j'.reports := by
  simp only [firstFailure?_eq_findSome?, reports, List.mapIdx_eq_zipIdx_map, List.findSome?_map, ← same]
  congr 1
  funext x
  exact (report_outcome same x.2 x.1).2

theorem errors_same (same : j.catalog = j'.catalog) : j.output.errors = j'.output.errors := by
  simp only [output_errors, reports, List.mapIdx_eq_zipIdx_map, List.flatMap_map, ← same]
  congr 1
  funext x
  exact (report_outcome same x.2 x.1).1

end Job

/-- Of the attributes and the settings only strictness decides whether a pass succeeds, and none of them which
soft errors it leaves and which ids it declares. -/
theorem generate_compared (schemas : List EntitySchema) (attributes attributes' : List Attribute)
    {settings settings' : Settings} (strictness : settings.strict = settings'.strict) :
    (∃ failure, generate schemas attributes settings = .error failure ∧
      generate schemas attributes' settings' = .error failure) ∨
    ∃ o o', generate schemas attributes settings = .ok o ∧ generate schemas attributes' settings' = .ok o' ∧
      o.errors = o'.errors ∧ o.interfaces = o'.interfaces := by
  by_cases nonempty : schemas = []
  · subst nonempty
    exact .inr ⟨_, _, generate_nil, generate_nil, rfl, rfl⟩
  by_cases accepted : settings.strict = true → checkListing schemas = .ok ()
  · have accepted' : settings'.strict = true → checkListing schemas = .ok () := strictness ▸ accepted
    have failures : firstFailure? (Job.ofListing schemas attributes' settings').reports =
        firstFailure? (Job.ofListing schemas attributes settings).reports := Job.firstFailure?_same rfl
    rw [generate_of_accepted nonempty accepted, generate_of_accepted nonempty accepted', failures]
    cases failed : firstFailure? (Job.ofListing schemas attributes settings).reports with
    | some failure => exact .inl ⟨_, rfl, rfl⟩
    | none =>
      have faultless : (Job.ofListing schemas attributes settings).Faultless := Job.firstFailure?_reports.mp failed
      have ids' : (Job.ofListing schemas attributes' settings').output.interfaces = listedIds schemas :=
        Job.output_ids faultless
      exact .inr ⟨_, _, rfl, rfl, Job.errors_same rfl, (Job.output_ids faultless).trans ids'.symm⟩
  · rw [Classical.not_imp] at accepted
    obtain ⟨strict, refused⟩ := accepted
    cases checked : checkListing schemas with
    | ok => exact absurd checked refused
    | error reason =>
      exact .inl ⟨_, generate_of_refused nonempty strict checked,
        generate_of_refused nonempty (strictness ▸ strict) checked⟩

end EntityTypings
