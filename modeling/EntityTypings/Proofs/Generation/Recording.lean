import EntityTypings.Proofs.Generation.InterfaceMembers
import EntityTypings.Proofs.Generation.Walk
import EntityTypings.Proofs.NameTable
import EntityTypings.Proofs.TypeScript.Gaps

/-!
# What an entry does to an output

Recording the report of an entry adds its declaration to an output, or soft errors alone; how it ends does not depend
on the output, and nothing that stood there changes: `record_atomic`. A pass through properties that stops at a fault
leaves the soft errors of the properties in front of it: `Job.mapProperties_stopped`.
-/

namespace EntityTypings

open TypeScript

/-- A pass gets through properties: each has a type or is left out, with these soft errors in order. -/
inductive Passes (id : String) : List (String × Property) → List SoftError → Prop where
  | nil : Passes id [] []
  | typed {name : String} {p : Property} {type : TypeExpr} {rest : List (String × Property)} {errors : List SoftError}
      (typing : Typing p type) (others : Passes id rest errors) : Passes id ((name, p) :: rest) errors
  | skipped {name : String} {p : Property} {error : SoftError} {rest : List (String × Property)}
      {errors : List SoftError} (gap : Gap ⟨id, name⟩ p error) (others : Passes id rest errors) :
      Passes id ((name, p) :: rest) (error :: errors)

namespace Output

/-- Soft errors are added to an output, and nothing else. -/
structure AddsErrors (o o' : Output) (errors : List SoftError) : Prop where
  errors : o'.errors = o.errors ++ errors
  code : o'.code = o.code
  interfaces : o'.interfaces = o.interfaces

/-- Soft errors and the declaration of an interface are added to an output. -/
structure AddsDeclaration (o o' : Output) (errors : List SoftError) (id block : String) : Prop where
  errors : o'.errors = o.errors ++ errors
  code : o'.code = o.code ++ separator o.code ++ block
  interfaces : o'.interfaces = o.interfaces ++ [id]

/-- What stood in an output stands at the front of another. -/
structure Keeps (o o' : Output) : Prop where
  errors : o.errors <+: o'.errors
  code : o.code.toList <+: o'.code.toList
  interfaces : o.interfaces <+: o'.interfaces

variable {o o' : Output} {errors : List SoftError} {id block : String}

theorem AddsErrors.keeps (added : o.AddsErrors o' errors) : o.Keeps o' where
  errors := ⟨_, added.errors.symm⟩
  code := added.code ▸ List.prefix_rfl
  interfaces := added.interfaces ▸ List.prefix_rfl

theorem AddsDeclaration.keeps (added : o.AddsDeclaration o' errors id block) : o.Keeps o' where
  errors := ⟨_, added.errors.symm⟩
  code := by
    rw [added.code, String.append_assoc, String.toList_append]
    exact List.prefix_append _ _
  interfaces := ⟨_, added.interfaces.symm⟩

theorem pushErrors_adds (o : Output) (errors : List SoftError) : o.AddsErrors (o.pushErrors errors) errors :=
  ⟨rfl, rfl, rfl⟩

theorem pushDeclaration_adds (o : Output) (errors : List SoftError) (id block : String) :
    o.AddsDeclaration ((o.pushErrors errors).pushDeclaration id block) errors id block :=
  ⟨rfl, rfl, rfl⟩

end Output

/-- How an entry ends. -/
inductive Ending where
  | unnamed
  | stopped (failure : MappingFailure)
  | declared (block : String)

namespace Job

/-- What recording the report of an entry does to an output, for each way in which the entry ends. -/
inductive Records (j : Job) (index : Nat) (e : CatalogEntry) (o o' : Output) : Ending → Prop where
  | unnamed (absent : e.id? = none) (ended : (j.report index e).result = .ok none)
      (added : o.AddsErrors o' [.missingId index]) : Records j index e o o' .unnamed
  | stopped {id name : String} {p : Property} {failure : MappingFailure} {skipped : List SoftError}
      (named : e.id? = some id) (ended : (j.report index e).result = .error failure)
      (selected : j.catalog.Selects e name p) (fault : Fault ⟨id, name⟩ p failure)
      (before : Passes id ((j.catalog.ownProperties e).filter (·.1 < name)) skipped)
      (added : o.AddsErrors o' skipped) : Records j index e o o' (.stopped failure)
  | declared {i : Interface} {skipped : List SoftError} (named : e.id? = some i.id)
      (ended : (j.report index e).result = .ok (some i)) (all : Passes i.id (j.catalog.ownProperties e) skipped)
      (added : o.AddsDeclaration o' skipped i.id i.render) : Records j index e o o' (.declared i.render)

variable {j : Job} {index : Nat} {e : CatalogEntry} {id : String} {s : EntitySchema}
  {properties : List (String × Property)} {o o' : Output}

/-! ### The properties of an entry -/

theorem mapProperties_passed {members : List Member} (done : (j.mapProperties id s properties).2 = .ok members) :
    Passes id properties (j.mapProperties id s properties).1 := by
  induction properties generalizing members with
  | nil => exact .nil
  | cons entry rest ih =>
    obtain ⟨name, p⟩ := entry
    unfold mapProperties at done ⊢
    cases mapped : mapProperty ⟨id, name⟩ p with
    | error failure => simp [mapped] at done
    | ok outcome =>
      simp only [mapped] at done
      cases outcome with
      | skipped err => exact .skipped (mapProperty_eq_skipped.mp mapped) (ih done)
      | typed type =>
        cases tail : (j.mapProperties id s rest).2 with
        | error failure => simp [tail, Except.map] at done
        | ok others => exact .typed (mapProperty_eq_typed.mp mapped) (ih tail)

/-- The soft errors that are left by a pass which stops are those of the properties in front of the fault. -/
theorem mapProperties_stopped {failure : MappingFailure}
    (failed : (j.mapProperties id s properties).2 = .error failure) : ∃ passed name p rest,
      properties = passed ++ (name, p) :: rest ∧ Passes id passed (j.mapProperties id s properties).1 ∧
      Fault ⟨id, name⟩ p failure := by
  induction properties with
  | nil => cases failed
  | cons entry rest ih =>
    obtain ⟨name, p⟩ := entry
    have carry {skipped : List SoftError} (tail : (j.mapProperties id s rest).2 = .error failure)
        (step : ∀ {passed}, Passes id passed (j.mapProperties id s rest).1 → Passes id ((name, p) :: passed) skipped) :
        ∃ passed at' q behind, (name, p) :: rest = passed ++ (at', q) :: behind ∧ Passes id passed skipped ∧
          Fault ⟨id, at'⟩ q failure := by
      obtain ⟨passed, at', q, behind, split, passes, fault⟩ := ih tail
      exact ⟨(name, p) :: passed, at', q, behind, congrArg ((name, p) :: ·) split, step passes, fault⟩
    unfold mapProperties at failed ⊢
    cases mapped : mapProperty ⟨id, name⟩ p with
    | error met =>
      simp only [mapped, Except.error.injEq] at failed
      exact ⟨[], name, p, rest, rfl, .nil, mapProperty_eq_error.mp (failed ▸ mapped)⟩
    | ok outcome =>
      simp only [mapped] at failed
      cases outcome with
      | skipped err => exact carry failed (.skipped (mapProperty_eq_skipped.mp mapped))
      | typed type =>
        have tail : (j.mapProperties id s rest).2 = .error failure := by
          cases members : (j.mapProperties id s rest).2 <;> simp [members, Except.map] at failed ⊢
          exact failed
        exact carry tail (.typed (mapProperty_eq_typed.mp mapped))

/-! ### The three endings -/

/-- How an entry ends, read off what its report gives. -/
def ending : Except MappingFailure (Option Interface) → Ending
  | .error failure => .stopped failure
  | .ok none => .unnamed
  | .ok (some i) => .declared i.render

theorem stopped_iff {result : Except MappingFailure (Option Interface)} {failure : MappingFailure} :
    (result.map fun _ => ()) = .error failure ↔ ending result = .stopped failure := by
  cases result with
  | error met => simp [Except.map, ending]
  | ok declared => cases declared <;> simp [Except.map, ending]

theorem records_unnamed (absent : e.id? = none) :
    j.Records index e o (o.record (j.report index e)) (ending (j.report index e).result) := by
  have ended : j.report index e = ⟨[.missingId index], .ok none⟩ := by
    rw [report, absent]
  rw [ended]
  exact .unnamed absent (congrArg Report.result ended) (o.pushErrors_adds _)

theorem records_named (named : e.id? = some id) :
    j.Records index e o (o.record (j.report index e)) (ending (j.report index e).result) := by
  have reported : j.report index e = ⟨(j.ownMembers id e).1,
      (j.ownMembers id e).2.map fun ms => some ⟨id, e.parents, ms ++ j.addedMembers id e⟩⟩ := by
    rw [report, named]
  cases members : (j.ownMembers id e).2 with
  | error failure =>
    have ended : j.report index e = ⟨(j.ownMembers id e).1, .error failure⟩ := by
      rw [reported, members]
      rfl
    obtain ⟨passed, name, p, rest, split, passes, fault⟩ := mapProperties_stopped members
    have before : (j.catalog.ownProperties e).filter (·.1 < name) = passed := by
      have ascending := j.catalog.ownProperties_ascending e
      rw [split] at ascending ⊢
      exact ascending.front
    have own : (name, p) ∈ j.catalog.ownProperties e := by
      rw [split]
      exact List.mem_append_right _ List.mem_cons_self
    rw [ended]
    exact .stopped named (congrArg Report.result ended) (Catalog.selects_iff.mpr own) fault (before ▸ passes)
      (o.pushErrors_adds _)
  | ok own =>
    have ended : j.report index e =
        ⟨(j.ownMembers id e).1, .ok (some ⟨id, e.parents, own ++ j.addedMembers id e⟩)⟩ := by
      rw [reported, members]
      rfl
    rw [ended]
    exact .declared named (congrArg Report.result ended) (mapProperties_passed members)
      (o.pushDeclaration_adds _ _ _)

theorem report_records (j : Job) (index : Nat) (e : CatalogEntry) (o : Output) :
    j.Records index e o (o.record (j.report index e)) (ending (j.report index e).result) := by
  cases named : e.id? with
  | none => exact records_unnamed named
  | some id => exact records_named named

theorem Records.determined {x : Ending} (recorded : j.Records index e o o' x) :
    x = ending (j.report index e).result := by
  cases recorded with
  | unnamed _ ended => rw [ended, ending]
  | stopped _ ended => rw [ended, ending]
  | declared _ ended => rw [ended, ending]

theorem Records.keeps {x : Ending} (recorded : j.Records index e o o' x) : o.Keeps o' := by
  cases recorded with
  | unnamed _ _ added => exact added.keeps
  | stopped _ _ _ _ _ added => exact added.keeps
  | declared _ _ _ added => exact added.keeps

end Job

/-- An entry ends in exactly one way, whatever the output was, and leaves in place what stood in the output. A block
that is declared is the same in front of any output. A walk through the properties of the entry, which adds to the
output and to the log as it goes, comes to the same and fails if the entry ends so. -/
theorem record_atomic (j : Job) (index : Nat) (e : CatalogEntry) :
    Ascending (j.catalog.ownProperties e) ∧ ∃ ending, ∀ o : Output,
      (∀ log, (j.walkEntry index e ⟨o, log⟩).1 = ⟨o.record (j.report index e), log ++ (j.report index e).notices⟩ ∧
        ∀ failure, (j.walkEntry index e ⟨o, log⟩).2 = .error failure ↔ ending = .stopped failure) ∧
      o.Keeps (o.record (j.report index e)) ∧
      ∀ other, j.Records index e o (o.record (j.report index e)) other ↔ other = ending := by
  refine ⟨j.catalog.ownProperties_ascending e, Job.ending (j.report index e).result, fun o => ?_⟩
  have recorded := j.report_records index e o
  refine ⟨fun log => ?_, recorded.keeps, fun other => ?_⟩
  · rw [Job.walkEntry_eq]
    exact ⟨rfl, fun failure => Job.stopped_iff⟩
  · constructor
    · exact Job.Records.determined
    · rintro rfl
      exact recorded

/-- A property in front of the fault is reported, though nothing is declared. -/
example : Output.empty.record ((Job.mk ⟨[]⟩ [] .standard).report 0
    ⟨((EntitySchema.named "Shot").addProperty "cuts" .empty).addProperty "fps" (.typed "float"), []⟩) =
    ⟨"", [.untypedProperty ⟨"Shot", "cuts"⟩], []⟩ := rfl

end EntityTypings
