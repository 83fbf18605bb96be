import EntityTypings.Proofs.Generation.Members
import EntityTypings.Proofs.Inheritance.Catalog
import Mathlib.Data.List.Basic

/-!
# How a pass ends

`generate_of_accepted` gives the result of a pass over a listing that is not refused. What the output holds
is read off the catalog's entries: `output_interfaces`, `output_errors`, and `output_code`, by which every
declaration stands in the code as a block of its own.
-/

namespace EntityTypings

open TypeScript

/-- The job of a listing. -/
abbrev Job.ofListing (schemas : List EntitySchema) (attributes : List Attribute) (settings : Settings) :
    Job := ⟨.ofSchemas schemas, attributes, settings⟩

variable {j : Job} {schemas : List EntitySchema} {attributes : List Attribute} {settings : Settings}

/-! ### Success and failure -/

theorem firstFailure?_eq_none {reports : List Report} :
    firstFailure? reports = none ↔ ∀ r ∈ reports, ∃ declared, r.result = .ok declared := by
  induction reports with
  | nil => simp [firstFailure?]
  | cons r rest ih =>
    rw [List.forall_mem_cons, ← ih]
    cases result : r.result <;> simp [firstFailure?, result]

namespace Job

/-- No property that some interface declares itself stops the pass. -/
def Faultless (j : Job) : Prop :=
  ∀ e ∈ j.catalog.entries, ∀ id, e.id? = some id →
    EntityTypings.Faultless id (j.catalog.ownProperties e)

theorem report_listed {e : CatalogEntry} (listed : e ∈ j.catalog.entries) :
    ∃ index, j.report index e ∈ j.reports := by
  obtain ⟨index, bound, rfl⟩ := List.mem_iff_getElem.mp listed
  exact ⟨index, List.mem_mapIdx.mpr ⟨index, bound, rfl⟩⟩

theorem firstFailure?_reports : firstFailure? j.reports = none ↔ j.Faultless := by
  rw [firstFailure?_eq_none]
  constructor
  · intro succeeded e listed
    obtain ⟨index, reported⟩ := report_listed listed
    exact report_eq_ok.mp (succeeded _ reported)
  · intro faultless r reported
    obtain ⟨index, bound, rfl⟩ := List.mem_mapIdx.mp reported
    exact report_eq_ok.mpr (faultless _ (List.getElem_mem bound))

theorem runLenient_result : j.runLenient.result =
    match firstFailure? j.reports with
    | some failure => .error (.mapping failure)
    | none => .ok j.output := by
  unfold runLenient
  cases firstFailure? j.reports <;> rfl

end Job

theorem generate_nil : generate [] attributes settings = .ok (Output.empty.pushError .noSchemas) := rfl

theorem generate_of_refused {reason : Inconsistency} (nonempty : schemas ≠ [])
    (strict : settings.strict = true) (refused : checkListing schemas = .error reason) :
    generate schemas attributes settings = .error (.inconsistent reason) := by
  have entries : (Catalog.ofSchemas schemas).entries.isEmpty = false := by
    simpa [Catalog.ofSchemas] using nonempty
  simp [generate, Job.run, entries, strict, Catalog.schemas_ofSchemas, refused]

theorem generate_of_accepted (nonempty : schemas ≠ [])
    (accepted : settings.strict = true → checkListing schemas = .ok ()) :
    generate schemas attributes settings =
      match firstFailure? (Job.ofListing schemas attributes settings).reports with
      | some failure => .error (.mapping failure)
      | none => .ok (Job.ofListing schemas attributes settings).output := by
  have entries : (Catalog.ofSchemas schemas).entries.isEmpty = false := by
    simpa [Catalog.ofSchemas] using nonempty
  rw [generate, Job.run, ← Job.runLenient_result]
  cases strict : settings.strict with
  | false => simp [entries]
  | true => simp [entries, Catalog.schemas_ofSchemas, accepted strict]

theorem generate_eq_ok {o : Output} (nonempty : schemas ≠ [])
    (done : generate schemas attributes settings = .ok o) :
    (settings.strict = true → checkListing schemas = .ok ()) ∧
      (Job.ofListing schemas attributes settings).Faultless ∧
      o = (Job.ofListing schemas attributes settings).output := by
  have accepted : settings.strict = true → checkListing schemas = .ok () := by
    intro strict
    cases refused : checkListing schemas with
    | ok => rfl
    | error reason =>
      rw [generate_of_refused nonempty strict refused] at done
      cases done
  rw [generate_of_accepted nonempty accepted] at done
  cases failed : firstFailure? (Job.ofListing schemas attributes settings).reports with
  | some failure => simp [failed] at done
  | none =>
    simp only [failed, Except.ok.injEq] at done
    exact ⟨accepted, Job.firstFailure?_reports.mp failed, done.symm⟩

theorem generate_eq_ok_iff {o : Output} (nonempty : schemas ≠ []) :
    generate schemas attributes settings = .ok o ↔
      (settings.strict = true → checkListing schemas = .ok ()) ∧
        (Job.ofListing schemas attributes settings).Faultless ∧
        o = (Job.ofListing schemas attributes settings).output := by
  refine ⟨generate_eq_ok nonempty, ?_⟩
  rintro ⟨accepted, faultless, rfl⟩
  rw [generate_of_accepted nonempty accepted, Job.firstFailure?_reports.mpr faultless]

/-! ### Blocks of code -/

/-- Adds a block to a text. -/
def appendBlock (code block : String) : String := code ++ separator code ++ block

theorem foldl_appendBlock_extends (blocks : List String) (code : String) :
    ∃ after, blocks.foldl appendBlock code = code ++ after := by
  induction blocks generalizing code with
  | nil => exact ⟨"", by simp⟩
  | cons block rest ih =>
    obtain ⟨after, extended⟩ := ih (appendBlock code block)
    refine ⟨separator code ++ block ++ after, ?_⟩
    rw [List.foldl_cons, extended, appendBlock]
    simp only [String.append_assoc]

theorem mem_foldl_appendBlock {blocks : List String} {block : String} (code : String)
    (listed : block ∈ blocks) : ∃ before after, blocks.foldl appendBlock code = before ++ block ++ after := by
  induction blocks generalizing code with
  | nil => exact absurd listed List.not_mem_nil
  | cons first rest ih =>
    rw [List.foldl_cons]
    rcases List.mem_cons.mp listed with rfl | listed
    · obtain ⟨after, extended⟩ := foldl_appendBlock_extends rest (appendBlock code block)
      exact ⟨code ++ separator code, after, extended⟩
    · exact ih (appendBlock code first) listed

/-! ### What a pass puts out -/

theorem Output.record_errors (o : Output) (r : Report) : (o.record r).errors = o.errors ++ r.skipped := by
  unfold Output.record
  split <;> rfl

theorem foldl_record_errors (reports : List Report) (o : Output) :
    (reports.foldl Output.record o).errors = o.errors ++ reports.flatMap Report.skipped := by
  induction reports generalizing o with
  | nil => simp
  | cons r rest ih =>
    rw [List.foldl_cons, ih, Output.record_errors, List.flatMap_cons, List.append_assoc]

theorem foldl_record_interfaces (reports : List Report) (o : Output) :
    (reports.foldl Output.record o).interfaces =
      o.interfaces ++ (reports.filterMap Report.interface?).map Interface.id := by
  induction reports generalizing o with
  | nil => simp
  | cons r rest ih =>
    rw [List.foldl_cons, ih]
    unfold Output.record Report.interface?
    rcases r with ⟨skipped, failure | declared⟩
    · simp [Output.pushErrors]
    · cases declared <;> simp [Output.pushErrors, Output.pushDeclaration, Output.pushCode]

theorem foldl_record_code (reports : List Report) (o : Output) :
    (reports.foldl Output.record o).code =
      ((reports.filterMap Report.interface?).map Interface.render).foldl appendBlock o.code := by
  induction reports generalizing o with
  | nil => rfl
  | cons r rest ih =>
    rw [List.foldl_cons, ih]
    unfold Output.record Report.interface?
    rcases r with ⟨skipped, failure | declared⟩
    · rfl
    · cases declared <;> rfl

namespace Job

/-- The declared interfaces, in the order of their entries. -/
def interfaces (j : Job) : List Interface := j.catalog.entries.filterMap j.interface?

/-- The blocks of a pass: the interfaces, then the declarations over the whole listing. -/
def blocks (j : Job) : List String :=
  j.interfaces.map Interface.render ++ (subtypeUnion? j.catalog).toList ++
    (if j.settings.emitEntityTypeMap then entityTypeMap? (j.interfaces.map Interface.id) else none).toList

theorem interfaces_reports (j : Job) : j.reports.filterMap Report.interface? = j.interfaces := by
  rw [reports, interfaces, List.mapIdx_eq_zipIdx_map, List.filterMap_map]
  have position : (Report.interface? ∘ fun x : CatalogEntry × Nat => j.report x.2 x.1) =
      j.interface? ∘ Prod.fst := by
    funext x
    exact interface?_report j x.2 x.1
  rw [position, ← List.filterMap_map, List.zipIdx_map_fst]

theorem close_errors (o : Output) : (j.close o).errors = o.errors := by
  unfold close
  cases subtypeUnion? j.catalog <;> dsimp only <;> split <;> rfl

theorem close_interfaces (o : Output) : (j.close o).interfaces = o.interfaces := by
  unfold close
  cases subtypeUnion? j.catalog <;> dsimp only <;> split <;> rfl

theorem close_code {o : Output} {ids : List String} (declared : o.interfaces = ids) :
    (j.close o).code = ((subtypeUnion? j.catalog).toList ++
      (if j.settings.emitEntityTypeMap then entityTypeMap? ids else none).toList).foldl
        appendBlock o.code := by
  subst declared
  unfold close
  cases subtypeUnion? j.catalog <;>
    simp only [Output.pushCode, Option.toList_none, Option.toList_some, List.nil_append,
      List.cons_append, List.foldl_cons] <;>
    cases (if j.settings.emitEntityTypeMap = true then entityTypeMap? o.interfaces else none) <;> rfl

theorem output_errors (j : Job) : j.output.errors = j.reports.flatMap Report.skipped := by
  rw [output, close_errors, foldl_record_errors]
  rfl

theorem recorded_interfaces (j : Job) :
    (j.reports.foldl Output.record j.opening).interfaces = j.interfaces.map Interface.id := by
  rw [foldl_record_interfaces, interfaces_reports]
  rfl

theorem output_interfaces (j : Job) : j.output.interfaces = j.interfaces.map Interface.id := by
  rw [output, close_interfaces, recorded_interfaces]

theorem output_code (j : Job) : j.output.code = j.blocks.foldl appendBlock j.opening.code := by
  rw [output, close_code (recorded_interfaces j), foldl_record_code, interfaces_reports]
  rw [← List.foldl_append, blocks, List.append_assoc]

end Job

/-- Without faults every entry that has an id is declared. -/
theorem Job.interfaces_of_faultless (faultless : j.Faultless) :
    j.output.interfaces = j.catalog.entries.filterMap CatalogEntry.id? := by
  rw [output_interfaces, interfaces, List.map_filterMap]
  refine List.filterMap_congr fun e listed => ?_
  cases named : e.id? with
  | none => simp [interface?, named]
  | some id => simp [interface?_of_faultless named (faultless e listed id named)]

theorem Job.output_ids (faultless : (Job.ofListing schemas attributes settings).Faultless) :
    (Job.ofListing schemas attributes settings).output.interfaces = listedIds schemas := by
  rw [interfaces_of_faultless faultless, Catalog.entries_ids]

theorem Job.interfaces_ids (faultless : (Job.ofListing schemas attributes settings).Faultless) :
    (Job.ofListing schemas attributes settings).interfaces.map Interface.id = listedIds schemas := by
  rw [← output_interfaces, output_ids faultless]

theorem Job.mem_interfaces (faultless : j.Faultless) {i : Interface} :
    i ∈ j.interfaces ↔ ∃ e ∈ j.catalog.entries, ∃ id, e.id? = some id ∧
      i = ⟨id, e.parents,
        (j.catalog.ownProperties e).filterMap (j.member? id e.schema) ++ j.addedMembers id e⟩ := by
  rw [interfaces, List.mem_filterMap]
  refine exists_congr fun e => and_congr_right fun listed => ?_
  cases named : e.id? with
  | none => simp [interface?, named]
  | some id => simp [interface?_of_faultless named (faultless e listed id named), eq_comm]

/-- A block of a pass stands in the code of its output. -/
theorem Job.block_written {block : String} (listed : block ∈ j.blocks) :
    ∃ before after, j.output.code = before ++ block ++ after := by
  rw [output_code]
  exact mem_foldl_appendBlock j.opening.code listed

/-- A declaration stands in the code of an output, and its id is listed. -/
structure Output.Declares (o : Output) (i : Interface) : Prop where
  listed : i.id ∈ o.interfaces
  written : ∃ before after, o.code = before ++ i.render ++ after

theorem Job.output_declares {e : CatalogEntry} {i : Interface} (entry : e ∈ j.catalog.entries)
    (declared : j.interface? e = some i) : j.output.Declares i := by
  have member : i ∈ j.interfaces := List.mem_filterMap.mpr ⟨e, entry, declared⟩
  constructor
  · rw [output_interfaces]
    exact List.mem_map_of_mem member
  · apply block_written
    rw [blocks, List.append_assoc]
    exact List.mem_append_left _ (List.mem_map_of_mem member)

end EntityTypings
