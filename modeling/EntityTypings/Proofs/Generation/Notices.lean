import EntityTypings.Proofs.Generation.Recording

/-!
# What a pass tells

A pass goes through entries one after the other and tells of each: `Job.Steps`, `Job.Runs`. What it has told at any
point mirrors what has become of the output since: `Job.Runs.mirrors`. Every pass is such a run, up to the entry that
it stops at or with a count behind it: `log_mirrors`.
-/

namespace EntityTypings

open TypeScript

/-- The soft error that a notice tells of. -/
def Notice.softError? : Notice → Option SoftError
  | .softError error => some error
  | _ => none

/-- Notices mirror what becomes of an output while a pass goes through entries. All warnings are of soft errors or dual
entries. -/
structure Mirrors (entries : List CatalogEntry) (o o' : Output) (log : List Notice) : Prop where
  interfaces : o'.interfaces = o.interfaces ++ entries.filterMap CatalogEntry.id?
  errors : o'.errors = o.errors ++ log.filterMap Notice.softError?
  debugs : log.filter (·.level = .debug) = (entries.filterMap CatalogEntry.id?).map .declared
  duals : log.filter (fun n => n.level = .warn && n.softError?.isNone) =
    ((entries.filter CatalogEntry.isDual).filterMap CatalogEntry.id?).map .dual
  placed : ∀ before id after, log = before ++ .dual id :: after → ∃ rest, after = .declared id :: rest
  uncounted : ∀ n ∈ log, n.level ≠ .info

namespace Job

/-- A pass gets through an entry and tells of it. -/
inductive Steps (j : Job) (index : Nat) (e : CatalogEntry) (o o' : Output) : List Notice → Prop where
  | unnamed (recorded : j.Records index e o o' .unnamed) : Steps j index e o o' [.softError (.missingId index)]
  | declared {id block : String} {skipped : List SoftError} (named : e.id? = some id)
      (recorded : j.Records index e o o' (.declared block)) (errors : o'.errors = o.errors ++ skipped) :
      Steps j index e o o' (skipped.map .softError ++ ((if e.isDual then [.dual id] else []) ++ [.declared id]))

/-- A pass gets through entries, one after the other. -/
inductive Runs (j : Job) : List (CatalogEntry × Nat) → Output → Output → List Notice → Prop where
  | done (o : Output) : Runs j [] o o []
  | next {e : CatalogEntry} {index : Nat} {rest : List (CatalogEntry × Nat)} {o o' o'' : Output}
      {told log : List Notice} (step : j.Steps index e o o' told) (others : j.Runs rest o' o'' log) :
      Runs j ((e, index) :: rest) o o'' (told ++ log)

/-- A pass stops at an entry, after some soft errors of it. -/
structure Stops (j : Job) (index : Nat) (e : CatalogEntry) (o o' : Output) (skipped : List SoftError)
    (failure : MappingFailure) : Prop where
  recorded : j.Records index e o o' (.stopped failure)
  errors : o'.errors = o.errors ++ skipped

/-- What a pass tells, for each way in which it ends. -/
inductive Logs (j : Job) : Pass → Prop where
  | empty (bare : j.catalog.entries = []) : Logs j ⟨[.softError .noSchemas], .ok ⟨"", [.noSchemas], []⟩⟩
  | refused {reason : Inconsistency} (nonempty : j.catalog.entries ≠ []) (strict : j.settings.strict = true)
      (refused : checkListing j.catalog.schemas = .error reason) : Logs j ⟨[], .error (.inconsistent reason)⟩
  | stopped {passed rest : List (CatalogEntry × Nat)} {e : CatalogEntry} {index : Nat} {o o' : Output}
      {log : List Notice} {skipped : List SoftError} {failure : MappingFailure}
      (accepted : j.settings.strict = true → checkListing j.catalog.schemas = .ok ())
      (split : j.catalog.entries.zipIdx = passed ++ (e, index) :: rest) (run : j.Runs passed j.opening o log)
      (stop : j.Stops index e o o' skipped failure)
      (mirrors : Mirrors (passed.map Prod.fst) j.opening o' (log ++ skipped.map .softError)) :
      Logs j ⟨log ++ skipped.map .softError, .error (.mapping failure)⟩
  | finished {o : Output} {log : List Notice} (nonempty : j.catalog.entries ≠ [])
      (accepted : j.settings.strict = true → checkListing j.catalog.schemas = .ok ())
      (run : j.Runs j.catalog.entries.zipIdx j.opening o log)
      (mirrors : Mirrors j.catalog.entries j.opening (j.close o) log) :
      Logs j ⟨log ++ [.finished (j.close o).interfaces.length j.catalog.entries.length (j.close o).errors.length],
        .ok (j.close o)⟩

end Job

variable {j : Job} {index : Nat} {e : CatalogEntry} {entries entries' : List CatalogEntry} {o o' o'' : Output}
  {log log' : List Notice} {skipped : List SoftError} {failure : MappingFailure}

/-! ### What a run tells -/

namespace Mirrors

theorem append (first : Mirrors entries o o' log) (second : Mirrors entries' o' o'' log') :
    Mirrors (entries ++ entries') o o'' (log ++ log') where
  interfaces := by rw [second.interfaces, first.interfaces, List.filterMap_append, List.append_assoc]
  errors := by rw [second.errors, first.errors, List.filterMap_append, List.append_assoc]
  debugs := by rw [List.filter_append, first.debugs, second.debugs, List.filterMap_append, List.map_append]
  duals := by
    rw [List.filter_append, first.duals, second.duals, List.filter_append, List.filterMap_append, List.map_append]
  placed := by
    intro before id after split
    -- a first log that tells of a dual entry tells its declaration too, so that no pair is split
    rcases List.append_eq_append_iff.mp split with ⟨between, rfl, behind⟩ | ⟨front, rfl, rest⟩
    · exact second.placed between id after behind
    · cases front with
      | nil => exact second.placed [] id after rest.symm
      | cons n front =>
        obtain ⟨rfl, rfl⟩ := List.cons_eq_cons.mp rest
        obtain ⟨behind, rfl⟩ := first.placed before id front rfl
        exact ⟨behind ++ log', rfl⟩
  uncounted := by
    intro n told
    rcases List.mem_append.mp told with told | told
    · exact first.uncounted n told
    · exact second.uncounted n told

theorem nil (o : Output) : Mirrors [] o o [] where
  interfaces := (List.append_nil _).symm
  errors := (List.append_nil _).symm
  debugs := rfl
  duals := rfl
  placed := fun before _ _ split => by simp at split
  uncounted := fun _ told => absurd told List.not_mem_nil

/-- Soft errors alone are told where no entry is declared. -/
theorem softErrors (absent : ∀ e ∈ entries, e.id? = none) (added : o.AddsErrors o' skipped) :
    Mirrors entries o o' (skipped.map .softError) where
  interfaces := by
    rw [added.interfaces, List.filterMap_eq_nil_iff.mpr absent, List.append_nil]
  errors := by
    rw [added.errors, List.filterMap_map]
    exact congrArg (o.errors ++ ·) (List.filterMap_some).symm
  debugs := by
    rw [List.filterMap_eq_nil_iff.mpr absent, List.filter_map]
    simp [Notice.level, Function.comp_def]
  duals := by
    have undeclared : (entries.filter CatalogEntry.isDual).filterMap CatalogEntry.id? = [] :=
      List.filterMap_eq_nil_iff.mpr fun e listed => absent e (List.mem_of_mem_filter listed)
    rw [undeclared, List.filter_map]
    simp [Notice.softError?, Function.comp_def]
  placed := by
    intro before id after split
    have told : Notice.dual id ∈ skipped.map Notice.softError := split ▸ List.mem_append_right _ List.mem_cons_self
    simp at told
  uncounted := by
    intro n told
    obtain ⟨error, _, rfl⟩ := List.mem_map.mp told
    simp [Notice.level]

/-- A declaration is told last, behind that the entry is dual. -/
theorem declaration {id block : String} (named : e.id? = some id) (added : o.AddsDeclaration o' [] id block) :
    Mirrors [e] o o' ((if e.isDual then [.dual id] else []) ++ [.declared id]) where
  interfaces := by simp [added.interfaces, named]
  errors := by
    rw [added.errors]
    split <;> rfl
  debugs := by split <;> simp [named, Notice.level]
  duals := by cases dual : e.isDual <;> simp [named, dual, Notice.level, Notice.softError?]
  placed := by
    intro before id' after split
    have last {front : List Notice} (told : [Notice.declared id] = front ++ .dual id' :: after) : False := by
      have listed : Notice.dual id' ∈ [Notice.declared id] := told ▸ List.mem_append_right _ List.mem_cons_self
      simp at listed
    split at split
    · cases before with
      | nil =>
        obtain ⟨same, rfl⟩ := List.cons_eq_cons.mp split
        obtain rfl := Notice.dual.inj same
        exact ⟨[], rfl⟩
      | cons n before => exact (last (List.cons_eq_cons.mp split).2).elim
    · exact (last split).elim
  uncounted := by
    have undeclared : ∀ n ∈ [Notice.dual id, .declared id], n.level ≠ .info := by simp [Notice.level]
    split
    · exact undeclared
    · exact fun n told => undeclared n (List.mem_cons_of_mem _ told)

end Mirrors

namespace Job

theorem Steps.mirrors (step : j.Steps index e o o' log) : Mirrors [e] o o' log := by
  cases step with
  | unnamed recorded =>
    cases recorded with
    | unnamed absent _ added => exact .softErrors (List.forall_mem_singleton.mpr absent) added
  | @declared id block skipped named recorded errors =>
    cases recorded with
    | @declared i skipped' named' _ _ added =>
      obtain rfl : id = i.id := Option.some.inj (named.symm.trans named')
      obtain rfl : skipped = skipped' := List.append_cancel_left (errors.symm.trans added.errors)
      -- the soft errors are told while the entry is not declared yet
      have reported : Mirrors [] o (o.pushErrors skipped) (skipped.map .softError) :=
        .softErrors (List.forall_mem_nil _) (o.pushErrors_adds skipped)
      have declared : (o.pushErrors skipped).AddsDeclaration o' [] i.id i.render :=
        ⟨added.errors.trans (List.append_nil _).symm, added.code, added.interfaces⟩
      exact reported.append (.declaration named declared)

theorem Stops.mirrors (stop : j.Stops index e o o' skipped failure) : Mirrors [] o o' (skipped.map .softError) := by
  obtain ⟨recorded, errors⟩ := stop
  cases recorded with
  | @stopped _ _ _ _ skipped' _ _ _ _ _ added =>
    obtain rfl : skipped = skipped' := List.append_cancel_left (errors.symm.trans added.errors)
    exact .softErrors (List.forall_mem_nil _) added

theorem Runs.mirrors {passed : List (CatalogEntry × Nat)} (run : j.Runs passed o o' log) :
    Mirrors (passed.map Prod.fst) o o' log := by
  induction run with
  | done o => exact .nil o
  | next step _ ih => exact step.mirrors.append ih

/-! ### Reports as steps -/

theorem report_steps {declared : Option Interface} (done : (j.report index e).result = .ok declared) :
    j.Steps index e o (o.record (j.report index e)) (j.report index e).notices := by
  have recorded := j.report_records index e o
  rw [done] at recorded
  cases declared with
  | none =>
    have absent : e.id? = none := by
      cases recorded with
      | unnamed absent => exact absent
    have told : (j.report index e).notices = [.softError (.missingId index)] := by
      rw [report, absent]
      rfl
    rw [told]
    exact .unnamed recorded
  | some i =>
    have told : (j.report index e).notices = (j.report index e).skipped.map .softError ++
        ((if e.isDual then [.dual i.id] else []) ++ [.declared i.id]) := by
      rw [Report.notices, done, CatalogEntry.isDual, ← (report_eq_declared done).2.1]
    rw [told]
    exact .declared (report_eq_declared done).1 recorded (o.record_errors _)

theorem report_stops (failed : (j.report index e).result = .error failure) :
    j.Stops index e o (o.record (j.report index e)) (j.report index e).skipped failure where
  recorded := by
    have recorded := j.report_records index e o
    rw [failed] at recorded
    exact recorded
  errors := o.record_errors _

/-! ### Passes as runs -/

theorem reportsOf_runs {entries : List (CatalogEntry × Nat)} (o : Output)
    (done : firstFailure? (j.reportsOf entries) = none) :
    j.Runs entries o ((j.reportsOf entries).foldl Output.record o)
      ((untilFailure (j.reportsOf entries)).flatMap Report.notices) := by
  induction entries generalizing o with
  | nil => exact .done o
  | cons x rest ih =>
    obtain ⟨e, index⟩ := x
    unfold reportsOf at done ⊢
    cases result : (j.report index e).result with
    | error failure => simp [firstFailure?, result] at done
    | ok declared =>
      rw [List.map_cons, firstFailure?, result] at done
      rw [List.map_cons, untilFailure, result, List.flatMap_cons]
      exact .next (report_steps result) (ih _ done)

theorem reportsOf_stops {entries : List (CatalogEntry × Nat)} (o : Output)
    (failed : firstFailure? (j.reportsOf entries) = some failure) :
    ∃ passed e index rest log o' o'' skipped, entries = passed ++ (e, index) :: rest ∧ j.Runs passed o o' log ∧
      j.Stops index e o' o'' skipped failure ∧
      (untilFailure (j.reportsOf entries)).flatMap Report.notices = log ++ skipped.map .softError := by
  induction entries generalizing o with
  | nil => cases failed
  | cons x rest ih =>
    obtain ⟨e, index⟩ := x
    unfold reportsOf at failed ⊢
    cases result : (j.report index e).result with
    | error met =>
      rw [List.map_cons, firstFailure?, result] at failed
      obtain rfl := Option.some.inj failed
      refine ⟨[], e, index, rest, [], o, _, _, rfl, .done o, report_stops result, ?_⟩
      simp [untilFailure, result, Report.notices]
    | ok declared =>
      rw [List.map_cons, firstFailure?, result] at failed
      obtain ⟨passed, e', index', behind, log, o', o'', skipped, rfl, run, stop, told⟩ := ih _ failed
      refine ⟨(e, index) :: passed, e', index', behind, _, o', o'', skipped, rfl, .next (report_steps result) run,
        stop, ?_⟩
      rw [List.map_cons, untilFailure, result, List.flatMap_cons, List.append_assoc]
      exact congrArg _ told

theorem runLenient_logs (nonempty : j.catalog.entries ≠ [])
    (accepted : j.settings.strict = true → checkListing j.catalog.schemas = .ok ()) : j.Logs j.runLenient := by
  unfold runLenient
  cases failed : firstFailure? j.reports with
  | some failure =>
    rw [reports_eq] at failed ⊢
    obtain ⟨passed, e, index, rest, log, o, o', skipped, split, run, stop, told⟩ := reportsOf_stops j.opening failed
    have mirrors := run.mirrors.append stop.mirrors
    rw [List.append_nil] at mirrors
    simp only [told]
    exact .stopped accepted split run stop mirrors
  | none =>
    rw [reports_eq] at failed
    simp only [output, reports_eq]
    have run := reportsOf_runs j.opening failed
    have mirrors := run.mirrors
    rw [List.zipIdx_map_fst] at mirrors
    exact .finished nonempty accepted run { mirrors with
      interfaces := (close_interfaces _).trans mirrors.interfaces
      errors := (close_errors _).trans mirrors.errors }

theorem run_logs (j : Job) : j.Logs j.run := by
  unfold run
  cases bare : j.catalog.entries with
  | nil => exact .empty bare
  | cons e rest =>
    have nonempty : j.catalog.entries ≠ [] := bare ▸ List.cons_ne_nil e rest
    cases strict : j.settings.strict with
    | false =>
      exact runLenient_logs nonempty fun strict' => absurd strict' (by simp [strict])
    | true =>
      cases checked : checkListing j.catalog.schemas with
      | error reason => exact .refused nonempty strict checked
      | ok => exact runLenient_logs nonempty fun _ => checked

/-! ### Levels -/

theorem Logs.counted {pass : Pass} (logs : j.Logs pass) (n : Notice) :
    (n ∈ pass.notices ∧ n.level = .info) ↔ j.catalog.entries ≠ [] ∧ ∃ o, pass.result = .ok o ∧
      n = .finished o.interfaces.length j.catalog.entries.length o.errors.length := by
  cases logs with
  | empty bare =>
    constructor
    · rintro ⟨told, info⟩
      obtain rfl := List.mem_singleton.mp told
      cases info
    · exact fun finished => absurd bare finished.1
  | refused => simp
  | stopped _ _ _ _ mirrors => simpa using mirrors.uncounted n
  | finished nonempty _ _ mirrors =>
    constructor
    · rintro ⟨told, info⟩
      rcases List.mem_append.mp told with told | told
      · exact absurd info (mirrors.uncounted n told)
      · exact ⟨nonempty, _, rfl, List.mem_singleton.mp told⟩
    · rintro ⟨_, o, done, rfl⟩
      cases done
      exact ⟨List.mem_append_right _ List.mem_cons_self, rfl⟩

theorem Logs.told {pass : Pass} (logs : j.Logs pass) {o : Output} (done : pass.result = .ok o) :
    pass.notices.filter (·.level = .debug) = o.interfaces.map .declared ∧
      pass.notices.filterMap Notice.softError? = o.errors := by
  cases logs with
  | empty =>
    cases done
    exact ⟨rfl, rfl⟩
  | refused => cases done
  | stopped => cases done
  | finished _ _ _ mirrors =>
    cases done
    constructor
    · rw [List.filter_append, mirrors.debugs, mirrors.interfaces]
      exact List.append_nil _
    · rw [List.filterMap_append, mirrors.errors]
      exact List.append_nil _

end Job

theorem catalogNotices_eq (schemas : List EntitySchema) :
    catalogNotices schemas = schemas.filterMap fun s =>
      (s.mixin.filter (· ∉ listedIds schemas)).map (.missingMixin s.id?) := by
  have unlisted (target : String) : (findSchema? schemas target).isNone = decide (target ∉ listedIds schemas) := by
    rw [← Option.not_isSome, Bool.eq_iff_iff, Bool.not_eq_true', ← Bool.not_eq_true,
      Catalog.found_schema_iff_listed, decide_eq_true_eq]
  simp only [catalogNotices, missingMixin?, unlisted]

/-- A catalog warns once of each mixin that the listing lacks. Then a pass tells of the entries that it gets through,
of each its soft errors and, last, its declaration, and in front of that whether the entry is dual. If it stops, it
tells the soft errors of the entry that it stops at, and nothing more; if it ends, what it counts in its output. One
walk with the output and the log at hand gives the same pass. -/
theorem log_mirrors (schemas : List EntitySchema) (attributes : List Attribute) (settings : Settings) :
    (catalogNotices schemas = schemas.filterMap fun s =>
      (s.mixin.filter (· ∉ listedIds schemas)).map (.missingMixin s.id?)) ∧
    (∀ n ∈ catalogNotices schemas, n.level = .warn) ∧
    (Job.ofListing schemas attributes settings).walk = (Job.ofListing schemas attributes settings).run ∧
    (Job.ofListing schemas attributes settings).Logs (Job.ofListing schemas attributes settings).run ∧
    (∀ o, generate schemas attributes settings = .ok o →
      (Job.ofListing schemas attributes settings).run.notices.filter (·.level = .debug) =
        o.interfaces.map .declared ∧
      (Job.ofListing schemas attributes settings).run.notices.filterMap Notice.softError? = o.errors) ∧
    ∀ n, (n ∈ (Job.ofListing schemas attributes settings).run.notices ∧ n.level = .info) ↔
      schemas ≠ [] ∧ ∃ o, generate schemas attributes settings = .ok o ∧
        n = .finished o.interfaces.length schemas.length o.errors.length := by
  have logs := (Job.ofListing schemas attributes settings).run_logs
  refine ⟨catalogNotices_eq schemas, ?_, Job.walk_eq_run _, logs, fun _ done => logs.told done, fun n => ?_⟩
  · intro n told
    obtain ⟨s, _, missing⟩ := List.mem_filterMap.mp told
    obtain ⟨target, _, rfl⟩ := Option.map_eq_some_iff.mp missing
    rfl
  · have nonempty : (Job.ofListing schemas attributes settings).catalog.entries ≠ [] ↔ schemas ≠ [] :=
      not_congr List.map_eq_nil_iff
    have length : (Job.ofListing schemas attributes settings).catalog.entries.length = schemas.length :=
      List.length_map _
    rw [← nonempty, ← length]
    exact logs.counted n

/-- The last schema stops the pass, behind a soft error of its own. -/
example :
    (Job.ofListing [.empty, .named "TypedContext", { EntitySchema.named "Shot" with
        mixin := some "TypedContext", aliasFor := some (.bare "Task") },
      ((EntitySchema.named "Cut").addProperty "edits" .empty).addProperty "fps" (.typed "float")] []
      .standard).run.notices =
    [.softError (.missingId 0), .declared "TypedContext", .dual "Shot", .declared "Shot",
      .softError (.untypedProperty ⟨"Cut", "edits"⟩)] := rfl

end EntityTypings
