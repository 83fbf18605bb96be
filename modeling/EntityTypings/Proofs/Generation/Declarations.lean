import EntityTypings.Proofs.Generation.Layout

/-!
# The declarations of a pass

The blocks of a pass as data, with the names that each of them declares: `Job.output_code_declarations`.
`code_is_blocks` says the same of the text that each entry adds to an empty output, and of the two
declarations behind them.
-/

namespace EntityTypings

namespace TypeScript

inductive Declaration where
  | interface (i : Interface)
  /-- The union of the subtypes of the typed context. -/
  | subtypeUnion (ids : List String)
  /-- The map from ids to their interfaces, and the type of its keys. -/
  | entityTypeMap (ids : List String)

namespace Declaration

def render : Declaration → String
  | .interface i => i.render
  | .subtypeUnion ids =>
    "export type " ++ Dialect.subtypeUnion ++ " = " ++
      (TypeExpr.union (ids.map .literal)).render ++ ";\n"
  | .entityTypeMap ids =>
    "export interface EntityTypeMap \x7b\n" ++ String.join (ids.map mapEntry) ++
      "\x7d\n\nexport type EntityType = keyof EntityTypeMap;\n"

/-- The declared names. A type parameter is no part of the name of the typed context. -/
def names : Declaration → List String
  | .interface i => [i.id]
  | .subtypeUnion _ => [Dialect.subtypeUnion]
  | .entityTypeMap _ => ["EntityTypeMap", "EntityType"]

/-- The declaration with an interface changed, if it is one. -/
def mapInterface (f : Interface → Interface) : Declaration → Declaration
  | .interface i => .interface (f i)
  | .subtypeUnion ids => .subtypeUnion ids
  | .entityTypeMap ids => .entityTypeMap ids

end Declaration

theorem subtypeUnion?_eq (c : Catalog) :
    subtypeUnion? c = c.typedContext?.map fun _ => (Declaration.subtypeUnion (subtypes c)).render := rfl

theorem entityTypeMap?_eq (ids : List String) :
    entityTypeMap? ids = if ids = [] then none else some (Declaration.entityTypeMap ids.eraseDups).render := by
  cases ids <;> rfl

/-! ### Shape of blocks -/

/-- A block of declarations starts with a keyword and ends with exactly one line break. -/
structure IsBlock (s : String) : Prop where
  exported : "export ".toList <+: s.toList
  ended : EndsLine s

theorem exported_append {head : String} (exported : "export ".toList <+: head.toList) (s : String) :
    "export ".toList <+: (head ++ s).toList := by
  rw [String.toList_append]
  exact exported.trans (List.prefix_append _ _)

theorem Interface.isBlock (i : Interface) : IsBlock i.render := by
  unfold Interface.render
  constructor
  · simp only [String.append_assoc]
    exact exported_append (by decide) _
  · exact EndsLine.append _ ⟨[], '\x7d', rfl, by decide⟩

theorem Declaration.isBlock (d : Declaration) : IsBlock d.render := by
  unfold Declaration.render
  cases d with
  | interface i => exact i.isBlock
  | subtypeUnion ids =>
    dsimp only
    constructor
    · simp only [String.append_assoc]
      exact exported_append (by decide) _
    · exact EndsLine.append _ ⟨[], ';', rfl, by decide⟩
  | entityTypeMap ids =>
    dsimp only
    constructor
    · simp only [String.append_assoc]
      exact exported_append (by decide) _
    · exact EndsLine.append _
        ⟨"\x7d\n\nexport type EntityType = keyof EntityTypeMap".toList, ';', by decide, by decide⟩

end TypeScript

open TypeScript

namespace Job

variable {j : Job}

/-! ### The code as declarations -/

/-- What a pass declares, in order. -/
def declarations (j : Job) : List Declaration :=
  j.interfaces.map .interface ++
    (if j.catalog.typedContext?.isSome then [.subtypeUnion (subtypes j.catalog)] else []) ++
    (if j.settings.emitEntityTypeMap ∧ j.interfaces.map Interface.id ≠ [] then
      [.entityTypeMap (j.interfaces.map Interface.id).eraseDups] else [])

theorem mem_declarations {d : Declaration} : d ∈ j.declarations ↔
    (∃ i ∈ j.interfaces, d = .interface i) ∨
    (j.catalog.typedContext?.isSome = true ∧ d = .subtypeUnion (subtypes j.catalog)) ∨
    (j.settings.emitEntityTypeMap = true ∧ j.interfaces.map Interface.id ≠ [] ∧
      d = .entityTypeMap (j.interfaces.map Interface.id).eraseDups) := by
  have optional {p : Prop} [Decidable p] (last : Declaration) :
      d ∈ (if p then [last] else []) ↔ p ∧ d = last := by
    split <;> simp [*]
  rw [declarations, List.mem_append, List.mem_append, optional, optional, List.mem_map, and_assoc, or_assoc]
  simp only [eq_comm]

theorem mem_declarations_interface {i : Interface} : .interface i ∈ j.declarations ↔ i ∈ j.interfaces := by
  simp [mem_declarations]

theorem mem_declarations_union {ids : List String} : .subtypeUnion ids ∈ j.declarations ↔
    j.catalog.typedContext?.isSome = true ∧ ids = subtypes j.catalog := by
  simp [mem_declarations]

/-- Where each interface changes and keeps its id, the declarations behind the interfaces stay as they are. -/
theorem declarations_mapped {j' : Job} {f : Interface → Interface} (catalog : j'.catalog = j.catalog)
    (registry : j'.settings.emitEntityTypeMap = j.settings.emitEntityTypeMap)
    (changed : ∀ e ∈ j.catalog.entries, j'.interface? e = (j.interface? e).map f) (kept : ∀ i, (f i).id = i.id) :
    j'.declarations = j.declarations.map (Declaration.mapInterface f) := by
  have interfaces : j'.interfaces = j.interfaces.map f := by
    rw [Job.interfaces, Job.interfaces, List.map_filterMap, catalog]
    exact List.filterMap_congr changed
  have ids : j'.interfaces.map Interface.id = j.interfaces.map Interface.id := by
    rw [interfaces, List.map_map]
    exact List.map_congr_left fun i _ => kept i
  rw [declarations, declarations, ids, interfaces, catalog, registry, List.map_append, List.map_append,
    List.map_map, List.map_map]
  congr 1
  · congr 1
    split <;> rfl
  · split <;> rfl

theorem declarations_nil (attributes : List Attribute) (settings : Settings) :
    (Job.ofListing [] attributes settings).declarations = [] := by
  simp [declarations, interfaces, Catalog.ofSchemas, Catalog.typedContext?, Catalog.find?]

theorem blocks_eq (j : Job) : j.blocks = j.declarations.map Declaration.render := by
  have interfaces : (j.interfaces.map Declaration.interface).map Declaration.render =
      j.interfaces.map Interface.render := by
    rw [List.map_map]
    rfl
  have union : (subtypeUnion? j.catalog).toList =
      (if j.catalog.typedContext?.isSome then [Declaration.subtypeUnion (subtypes j.catalog)] else []).map
        Declaration.render := by
    rw [subtypeUnion?_eq]
    cases j.catalog.typedContext? <;> rfl
  have map : (if j.settings.emitEntityTypeMap then
        entityTypeMap? (j.interfaces.map Interface.id) else none).toList =
      (if j.settings.emitEntityTypeMap ∧ j.interfaces.map Interface.id ≠ [] then
        [Declaration.entityTypeMap (j.interfaces.map Interface.id).eraseDups] else []).map
          Declaration.render := by
    rw [entityTypeMap?_eq]
    by_cases wanted : j.settings.emitEntityTypeMap = true <;>
      by_cases none : j.interfaces.map Interface.id = [] <;> simp [wanted, none]
  rw [blocks, declarations, List.map_append, List.map_append, interfaces, union, map]

theorem isBlock_of_mem {block : String} (listed : block ∈ j.blocks) : IsBlock block := by
  rw [blocks_eq] at listed
  obtain ⟨d, _, rfl⟩ := List.mem_map.mp listed
  exact d.isBlock

/-- A banner ends with a blank line, so that the first block needs none in front of it. -/
theorem separator_opening (j : Job) : separator j.opening.code = "" := by
  rw [separator_eq_empty, opening]
  cases j.settings.banner with
  | none => exact .inl rfl
  | some banner =>
    right
    exact endsBlank_append _ (by decide)

theorem output_code_joined (j : Job) :
    j.output.code = j.opening.code ++ "\n".intercalate j.blocks := by
  rw [output_code]
  exact foldl_appendBlock_joined j.separator_opening fun _ listed => (isBlock_of_mem listed).ended

/-- The code is the banner and then the declarations, with a blank line between two of them. -/
theorem output_code_declarations (j : Job) :
    j.output.code = j.opening.code ++ "\n".intercalate (j.declarations.map Declaration.render) := by
  rw [output_code_joined, blocks_eq]

/-! ### Entries on their own -/

/-- The texts that entries with an id add, each to an empty output of its own. -/
def soloBlocks (j : Job) : List String :=
  j.catalog.entries.zipIdx.filterMap fun (e, index) =>
    e.id?.map fun _ => (Output.empty.record (j.report index e)).code

theorem record_empty_code {r : Report} {i : Interface} (declared : r.interface? = some i) :
    (Output.empty.record r).code = i.render := by
  obtain ⟨skipped, failure | own⟩ := r
  · cases declared
  · obtain rfl : own = some i := declared
    exact String.empty_append

theorem soloBlocks_eq (faultless : j.Faultless) : j.soloBlocks = j.interfaces.map Interface.render := by
  have entries : j.interfaces = j.catalog.entries.zipIdx.filterMap (j.interface? ∘ Prod.fst) := by
    rw [interfaces, ← List.filterMap_map, List.zipIdx_map_fst]
  rw [entries, List.map_filterMap, soloBlocks]
  refine List.filterMap_congr fun pair listed => ?_
  obtain ⟨e, index⟩ := pair
  have listed : e ∈ j.catalog.entries := List.fst_mem_of_mem_zipIdx listed
  cases named : e.id? with
  | none => simp [interface?, named]
  | some id =>
    have declared := interface?_of_faultless named (faultless e listed id named)
    have reported := (interface?_report j index e).trans declared
    simp [named, declared, record_empty_code reported]

end Job

variable {schemas : List EntitySchema} {attributes : List Attribute} {settings : Settings} {o : Output}

/-- The code of an output is the banner and then the declarations; an empty listing has no code. -/
theorem generate_eq_ok_code (done : generate schemas attributes settings = .ok o) :
    o.code = (if schemas = [] then "" else (settings.banner.map Banner.render).getD "") ++
      "\n".intercalate ((Job.ofListing schemas attributes settings).declarations.map Declaration.render) := by
  split
  next empty =>
    subst empty
    obtain rfl : Output.empty.pushError .noSchemas = o := Except.ok.inj done
    rw [Job.declarations_nil]
    rfl
  next nonempty =>
    obtain ⟨_, _, rfl⟩ := generate_eq_ok nonempty done
    exact Job.output_code_declarations _

/-- What an output consists of, for an empty listing as well. -/
theorem generate_eq_ok_declarations (done : generate schemas attributes settings = .ok o) :
    (settings.strict = true → checkListing schemas = .ok ()) ∧
      (Job.ofListing schemas attributes settings).Faultless ∧ o.interfaces = listedIds schemas ∧
      ∃ opening, separator opening = "" ∧ o.code = opening ++ "\n".intercalate
        ((Job.ofListing schemas attributes settings).declarations.map Declaration.render) := by
  have code := generate_eq_ok_code done
  by_cases nonempty : schemas = []
  · subst nonempty
    obtain rfl : Output.empty.pushError .noSchemas = o := Except.ok.inj done
    have faultless : (Job.ofListing [] attributes settings).Faultless := by simp [Job.Faultless, Catalog.ofSchemas]
    exact ⟨fun _ => rfl, faultless, rfl, _, rfl, code⟩
  · obtain ⟨accepted, faultless, rfl⟩ := generate_eq_ok nonempty done
    rw [if_neg nonempty] at code
    exact ⟨accepted, faultless, Job.output_ids faultless, _,
      (Job.ofListing schemas attributes settings).separator_opening, code⟩

/-- The code of an output is the banner and then its blocks, with one more line break between two of them: for
each schema with an id the text that its entry adds to an empty output, then the union of the subtypes, if the
listing has the typed context, then the entity type map, if it is wanted and some interface is declared. -/
theorem code_is_blocks (nonempty : schemas ≠ []) (done : generate schemas attributes settings = .ok o) :
    o.interfaces = listedIds schemas ∧
      ((∃ union, subtypeUnion? (.ofSchemas schemas) = some union) ↔
        Dialect.typedContext ∈ listedIds schemas) ∧
      ((∃ map, entityTypeMap? o.interfaces = some map) ↔ o.interfaces ≠ []) ∧
      ∃ blocks, blocks = (Job.ofListing schemas attributes settings).soloBlocks ++
          (subtypeUnion? (.ofSchemas schemas)).toList ++
          (if settings.emitEntityTypeMap then entityTypeMap? o.interfaces else none).toList ∧
        o.code = (settings.banner.map Banner.render).getD "" ++ "\n".intercalate blocks ∧
        ∀ block ∈ blocks, IsBlock block := by
  obtain ⟨_, faultless, rfl⟩ := generate_eq_ok nonempty done
  refine ⟨Job.output_ids faultless, ?_, ?_, _, rfl, ?_, ?_⟩
  · rw [← Catalog.found_iff_listed]
    simp [subtypeUnion?_eq, Catalog.typedContext?]
  · rw [entityTypeMap?_eq]
    split <;> simp_all
  · rw [Job.output_code_joined, Job.soloBlocks_eq faultless, Job.output_interfaces]
    rfl
  · rw [Job.soloBlocks_eq faultless, Job.output_interfaces]
    intro block listed
    exact Job.isBlock_of_mem listed

theorem layered_code_is_blocks : ∃ o,
    generate layered [] { Settings.standard with banner := some ⟨"Studio", none, none⟩ } = .ok o ∧
    o.interfaces = ["Context", "TypedContext", "Shot"] ∧
    ∃ blocks, blocks.length = 5 ∧ (∀ block ∈ blocks, IsBlock block) ∧
      o.code = (Banner.mk "Studio" none none).render ++ "\n".intercalate blocks := by
  have done : generate layered [] { Settings.standard with banner := some ⟨"Studio", none, none⟩ } = .ok _ := rfl
  obtain ⟨interfaces, _, _, blocks, same, code, shaped⟩ := code_is_blocks (List.cons_ne_nil _ _) done
  exact ⟨_, done, interfaces, blocks, by rw [same]; rfl, shaped, code⟩

end EntityTypings
