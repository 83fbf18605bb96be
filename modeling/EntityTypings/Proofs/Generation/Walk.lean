import EntityTypings.Generation.Pass
import EntityTypings.Proofs.TypeScript.InterfaceText
import Mathlib.Data.List.Basic

/-!
# A pass as one walk

A pass again, as one walk through the entries and the properties of each: every soft error goes to the output and to
the log where it is met, and what is told in front of a fault stays told. Reports take each entry apart from what was
there before. Both come to the same output and the same log: `Job.walkEntry_eq` for an entry, `Job.walk_eq_run` for a
pass.
-/

namespace EntityTypings

open TypeScript

/-- An output in the making, and what was told so far. -/
structure Course where
  output : Output
  log : List Notice

namespace Course

def tell (c : Course) (n : Notice) : Course := { c with log := c.log ++ [n] }

/-- Records a soft error, with a warning of it. -/
def pushError (c : Course) (e : SoftError) : Course :=
  ⟨c.output.pushError e, c.log ++ [.softError e]⟩

def pushErrors (c : Course) (es : List SoftError) : Course :=
  ⟨c.output.pushErrors es, c.log ++ es.map .softError⟩

theorem pushErrors_nil (c : Course) : c.pushErrors [] = c := by
  rw [pushErrors, Output.pushErrors_nil, List.map_nil, List.append_nil]

theorem pushErrors_cons (c : Course) (e : SoftError) (es : List SoftError) :
    c.pushErrors (e :: es) = (c.pushError e).pushErrors es := by
  simp only [pushErrors, pushError, Output.pushErrors_cons, List.map_cons, List.append_assoc, List.singleton_append]

/-- Tells of a declaration, then adds it. -/
def declare (c : Course) (dual : Bool) (id block : String) : Course :=
  let c := if dual then c.tell (.dual id) else c
  let c := c.tell (.declared id)
  { c with output := c.output.pushDeclaration id block }

/-- Records the report of an entry, with all that it tells. -/
def record (c : Course) (r : Report) : Course := ⟨c.output.record r, c.log ++ r.notices⟩

theorem record_stopped (c : Course) (skipped : List SoftError) (failure : MappingFailure) :
    c.record ⟨skipped, .error failure⟩ = c.pushErrors skipped := by
  rw [record, Report.notices, List.append_nil]
  rfl

theorem record_declared (c : Course) (skipped : List SoftError) (i : Interface) :
    c.record ⟨skipped, .ok (some i)⟩ = (c.pushErrors skipped).declare (Parent.isDual i.parents) i.id i.render := by
  unfold record declare Report.notices
  -- a dual entry is told of between its soft errors and its declaration
  cases dual : Parent.isDual i.parents with
  | false =>
    simp only [dual, Bool.false_eq_true, if_false, List.nil_append, ← List.append_assoc]
    rfl
  | true =>
    simp only [dual, if_true, ← List.append_assoc]
    rfl

end Course

namespace Job

variable {j : Job} {index : Nat} {e : CatalogEntry} {id : String} {s : EntitySchema}

/-! ### Walks -/

/-- Goes through properties, with the lines written so far. -/
def walkProperties (j : Job) (id : String) (s : EntitySchema) :
    List (String × Property) → String → Course → Course × Except MappingFailure String
  | [], lines, c => (c, .ok lines)
  | (name, p) :: rest, lines, c =>
    match mapProperty ⟨id, name⟩ p with
    | .error failure => (c, .error failure)
    | .ok (.skipped error) => walkProperties j id s rest lines (c.pushError error)
    | .ok (.typed type) => walkProperties j id s rest (lines ++ (j.propertyMember s name p type).render) c

/-- Goes through one entry. -/
def walkEntry (j : Job) (index : Nat) (e : CatalogEntry) (c : Course) : Course × Except MappingFailure Unit :=
  match e.id? with
  | none => (c.pushError (.missingId index), .ok ())
  | some id =>
    match j.walkProperties id e.schema (j.catalog.ownProperties e) "" c with
    | (c, .error failure) => (c, .error failure)
    | (c, .ok lines) =>
      let block := "export interface " ++ declarationName id ++ extendsClause id e.parents ++ " \x7b\n" ++
        (lines ++ renderMembers (j.addedMembers id e)) ++ "\x7d\n"
      (c.declare e.isDual id block, .ok ())

/-- Goes through entries, up to the first that fails. -/
def walkEntries (j : Job) : List (CatalogEntry × Nat) → Course → Course × Except MappingFailure Unit
  | [], c => (c, .ok ())
  | (e, index) :: rest, c =>
    match j.walkEntry index e c with
    | (c, .error failure) => (c, .error failure)
    | (c, .ok ()) => walkEntries j rest c

/-- The walk over a catalog that is not empty and need not be consistent. -/
def walkLenient (j : Job) : Pass :=
  match j.walkEntries j.catalog.entries.zipIdx ⟨j.opening, []⟩ with
  | (c, .error failure) => ⟨c.log, .error (.mapping failure)⟩
  | (c, .ok ()) =>
    let o := j.close c.output
    ⟨(c.tell (.finished o.interfaces.length j.catalog.entries.length o.errors.length)).log, .ok o⟩

def walk (j : Job) : Pass :=
  if j.catalog.entries.isEmpty then
    let c := Course.pushError ⟨.empty, []⟩ .noSchemas
    ⟨c.log, .ok c.output⟩
  else if j.settings.strict then
    match checkListing j.catalog.schemas with
    | .error reason => ⟨[], .error (.inconsistent reason)⟩
    | .ok () => j.walkLenient
  else j.walkLenient

/-! ### Properties and entries -/

theorem walkProperties_eq (properties : List (String × Property)) (lines : String) (c : Course) :
    j.walkProperties id s properties lines c = (c.pushErrors (j.mapProperties id s properties).1,
      (j.mapProperties id s properties).2.map fun members => lines ++ renderMembers members) := by
  -- lines and course are those that the properties in front have left
  induction properties generalizing lines c with
  | nil =>
    rw [walkProperties, mapProperties, Course.pushErrors_nil]
    exact congrArg (fun text => (c, Except.ok text)) String.append_empty.symm
  | cons entry rest ih =>
    obtain ⟨name, p⟩ := entry
    unfold walkProperties mapProperties
    cases mapped : mapProperty ⟨id, name⟩ p with
    | error failure =>
      simp only [Course.pushErrors_nil]
      rfl
    | ok outcome =>
      cases outcome with
      | skipped error => simp only [ih, Course.pushErrors_cons]
      | typed type =>
        simp only [ih]
        cases (j.mapProperties id s rest).2 with
        | error failure => rfl
        | ok members => simp only [Except.map, renderMembers_cons, String.append_assoc]

theorem walkEntry_eq (index : Nat) (e : CatalogEntry) (c : Course) :
    j.walkEntry index e c = (c.record (j.report index e), (j.report index e).result.map fun _ => ()) := by
  unfold walkEntry report
  cases named : e.id? with
  | none => rfl
  | some id =>
    simp only [walkProperties_eq, ownMembers]
    cases (j.mapProperties id e.schema (j.catalog.ownProperties e)).2 with
    | error failure =>
      dsimp only [Except.map]
      rw [Course.record_stopped]
    | ok own =>
      have block : "export interface " ++ declarationName id ++ extendsClause id e.parents ++ " \x7b\n" ++
          (("" ++ renderMembers own) ++ renderMembers (j.addedMembers id e)) ++ "\x7d\n" =
          (Interface.mk id e.parents (own ++ j.addedMembers id e)).render := by
        unfold Interface.render
        rw [renderMembers_append, String.empty_append]
      dsimp only [Except.map]
      rw [Course.record_declared, block]
      rfl

/-! ### Whole passes -/

/-- The reports of entries at their positions. -/
def reportsOf (j : Job) (entries : List (CatalogEntry × Nat)) : List Report := entries.map fun x => j.report x.2 x.1

theorem reports_eq (j : Job) : j.reports = j.reportsOf j.catalog.entries.zipIdx := List.mapIdx_eq_zipIdx_map

theorem walkEntries_eq (entries : List (CatalogEntry × Nat)) (c : Course) :
    j.walkEntries entries c = ((untilFailure (j.reportsOf entries)).foldl Course.record c,
      (firstFailure? (j.reportsOf entries)).elim (.ok ()) .error) := by
  induction entries generalizing c with
  | nil => rfl
  | cons x rest ih =>
    obtain ⟨e, index⟩ := x
    unfold walkEntries reportsOf
    simp only [walkEntry_eq, List.map_cons, untilFailure, firstFailure?]
    cases result : (j.report index e).result with
    | error failure => rfl
    | ok declared => exact ih _

theorem foldl_record (reports : List Report) (c : Course) : reports.foldl Course.record c =
    ⟨reports.foldl Output.record c.output, c.log ++ reports.flatMap Report.notices⟩ := by
  induction reports generalizing c with
  | nil => simp
  | cons r rest ih =>
    rw [List.foldl_cons, ih]
    simp [Course.record]

theorem untilFailure_of_none {reports : List Report} (done : firstFailure? reports = none) :
    untilFailure reports = reports := by
  induction reports with
  | nil => rfl
  | cons r rest ih =>
    unfold firstFailure? at done
    unfold untilFailure
    cases result : r.result with
    | error failure => simp [result] at done
    | ok declared =>
      rw [result] at done
      exact congrArg (r :: ·) (ih done)

theorem walkLenient_eq (j : Job) : j.walkLenient = j.runLenient := by
  unfold walkLenient runLenient
  rw [walkEntries_eq, foldl_record, output, reports_eq]
  cases failed : firstFailure? (j.reportsOf j.catalog.entries.zipIdx) with
  | some failure => rfl
  | none =>
    rw [untilFailure_of_none failed]
    rfl

theorem walk_eq_run (j : Job) : j.walk = j.run := by
  unfold walk run
  rw [walkLenient_eq]
  rfl

end Job

end EntityTypings
