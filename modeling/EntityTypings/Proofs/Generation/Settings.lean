import EntityTypings.Proofs.Generation.Comparison
import EntityTypings.Proofs.Generation.Declarations
import EntityTypings.Proofs.TypeScript.Comments

/-!
# What settings have a part in

Banner, comments and entity type map enter the code and nothing else, and each has a part of its own there: the
banner stands ahead of the blocks, the map behind them, and comments are lines inside of them. `generate_settings`
compares passes that differ in these three.
-/

namespace EntityTypings

open TypeScript
open Text (OneLine Leaves withoutLines oneLine_append)

namespace TypeScript

/-! ### Comments of declarations -/

namespace Declaration

/-- A declaration with every member and every comment on a line of its own. -/
def OnLines : Declaration → Prop
  | .interface i => i.OnLines
  | .subtypeUnion _ => True
  | .entityTypeMap ids => ∀ id ∈ ids, OneLine id

theorem subtypeUnion_leaves (ids : List String) :
    Leaves docMark (Declaration.subtypeUnion ids).render (Declaration.subtypeUnion ids).render := by
  have literals : (TypeExpr.union (ids.map .literal)).Named OneLine := by
    rw [TypeExpr.Named, TypeExpr.namedEach_iff]
    intro type listed
    obtain ⟨id, _, rfl⟩ := List.mem_map.mp listed
    trivial
  have union := literals.render_oneLine
  unfold render
  dsimp only
  rw [show ";\n" = ";" ++ "\n" from rfl, ← String.append_assoc]
  refine Leaves.line ?_ fun marked => ?_
  · simp only [oneLine_append]
    exact ⟨⟨⟨⟨by decide, by decide⟩, by decide⟩, union⟩, by decide⟩
  · simp only [String.toList_append, List.append_assoc] at marked
    exact absurd (List.cons_prefix_cons.mp marked).1 (by decide)

theorem mapEntry_leaves {id : String} (unbroken : OneLine id) : Leaves docMark (mapEntry id) (mapEntry id) := by
  obtain ⟨c, key, start, first⟩ := propertyKey_start id
  have visible : c ≠ '/' := by
    rintro rfl
    exact absurd first (by decide)
  rw [mapEntry, show ";\n" = ";" ++ "\n" from rfl, ← String.append_assoc]
  refine Leaves.line ?_ (unmarked_of_start ?_)
  · simp only [oneLine_append]
    exact ⟨⟨⟨⟨by decide, propertyKey_oneLine id⟩, by decide⟩, unbroken⟩, by decide⟩
  · simp only [String.toList_append, List.append_assoc, start]
    exact ⟨c, _, rfl, visible⟩

theorem entityTypeMap_leaves {ids : List String} (unbroken : ∀ id ∈ ids, OneLine id) :
    Leaves docMark (Declaration.entityTypeMap ids).render (Declaration.entityTypeMap ids).render := by
  have header : Leaves docMark "export interface EntityTypeMap \x7b\n" "export interface EntityTypeMap \x7b\n" :=
    Leaves.line (s := "export interface EntityTypeMap \x7b") (by decide) (by decide)
  have entries : Leaves docMark (String.join (ids.map mapEntry)) (String.join (ids.map mapEntry)) :=
    Leaves.join fun id listed => mapEntry_leaves (unbroken id listed)
  have blank : Leaves docMark "\n" "\n" := Leaves.line (s := "") (by decide) (by decide)
  have keys : Leaves docMark "export type EntityType = keyof EntityTypeMap;\n"
      "export type EntityType = keyof EntityTypeMap;\n" :=
    Leaves.line (s := "export type EntityType = keyof EntityTypeMap;") (by decide) (by decide)
  exact (header.append entries).append ((Interface.footer.append blank).append keys)

theorem OnLines.leaves {d : Declaration} (shaped : d.OnLines) :
    Leaves docMark d.render (d.mapInterface Interface.withoutDocs).render := by
  cases d with
  | interface i => exact Interface.OnLines.leaves shaped
  | subtypeUnion ids => exact subtypeUnion_leaves ids
  | entityTypeMap ids => exact entityTypeMap_leaves shaped

end Declaration

end TypeScript

/-- Neither the id of a schema nor what its properties refer to holds a line break. -/
structure EntitySchema.OneLined (s : EntitySchema) : Prop where
  id : ∀ id, s.id? = some id → OneLine id
  references : ∀ entry ∈ s.properties.entries, ∀ target, entry.2.RefersTo target → OneLine target

variable {schemas : List EntitySchema} {attributes : List Attribute} {settings : Settings} {e : CatalogEntry}
  {id : String}

namespace Job

variable {j : Job}

/-! ### Passes with and without comments -/

def undocumented (j : Job) : Job := { j with settings := { j.settings with emitDocs := false } }

theorem addedMembers_bare : (j.addedMembers id e).map Member.withoutDoc = j.addedMembers id e := by
  refine (List.map_congr_left fun m added => ?_).trans (List.map_id _)
  rcases mem_addedMembers added with ⟨_, rfl⟩ | rfl | rfl <;> rfl

theorem member?_undocumented (s : EntitySchema) (entry : String × Property) :
    j.undocumented.member? id s entry = (j.member? id s entry).map Member.withoutDoc := by
  unfold member?
  split <;> rfl

theorem interface?_undocumented (faultless : j.Faultless) (listed : e ∈ j.catalog.entries) :
    j.undocumented.interface? e = (j.interface? e).map Interface.withoutDocs := by
  cases named : e.id? with
  | none => simp [interface?, named]
  | some id =>
    have sound := faultless e listed id named
    have own : (j.catalog.ownProperties e).filterMap (j.undocumented.member? id e.schema) =
        ((j.catalog.ownProperties e).filterMap (j.member? id e.schema)).map Member.withoutDoc := by
      rw [List.map_filterMap]
      exact List.filterMap_congr fun entry _ => member?_undocumented e.schema entry
    have added : j.undocumented.addedMembers id e = (j.addedMembers id e).map Member.withoutDoc :=
      addedMembers_bare.symm
    rw [interface?_of_faultless (j := j.undocumented) named sound, interface?_of_faultless named sound,
      Option.map_some, Interface.withoutDocs, List.map_append, ← added, ← own]
    rfl

theorem declarations_undocumented (faultless : j.Faultless) :
    j.undocumented.declarations = j.declarations.map (Declaration.mapInterface Interface.withoutDocs) :=
  declarations_mapped rfl rfl (fun _ listed => interface?_undocumented faultless listed) fun _ => rfl

/-! ### Names on one line -/

theorem interface_onLines (faultless : (Job.ofListing schemas attributes settings).Faultless)
    (oneLined : ∀ s ∈ schemas, s.OneLined) :
    ∀ i ∈ (Job.ofListing schemas attributes settings).interfaces, i.OnLines := by
  intro i declared
  obtain ⟨e, listed, id, named, rfl⟩ := (mem_interfaces faultless).mp declared
  obtain ⟨s, member, rfl⟩ := List.mem_map.mp listed
  have inherited : ∀ name, (Catalog.ofSchemas schemas).attributeElement? = some name → OneLine name := by
    intro name found
    obtain ⟨other, listed, p, items, declared, held, refers⟩ := Catalog.attributeElement?_declared found
    exact (oneLined other listed).references _ declared name (.inr ⟨items, held, refers⟩)
  refine ⟨(oneLined s member).id id named, fun base extended => ?_, fun m made => ?_⟩
  · -- A mixin is extended only if the listing has it, so that its line breaks would be those of an id.
    obtain ⟨_, known⟩ := Catalog.base_mem_parentsIn.mp extended
    obtain ⟨other, listed, same⟩ := List.mem_filterMap.mp known
    exact (oneLined other listed).id base same
  rcases List.mem_append.mp made with own | added
  · obtain ⟨entry, declared, made⟩ := List.mem_filterMap.mp own
    obtain ⟨type, mapped, rfl⟩ := member?_eq_some.mp made
    have property := (Catalog.mem_ownProperties.mp declared).1
    constructor
    · have typing := mapProperty_eq_typed.mp mapped
      exact (typing.named ((oneLined s member).references entry property)).render_oneLine
    · intro text commented
      unfold propertyMember at commented
      split at commented
      · exact docComment_line commented
      · cases commented
  · rcases mem_addedMembers added with ⟨_, rfl⟩ | rfl | rfl
    · have field := Narrowing.fieldType_named (n := (Job.ofListing schemas attributes settings).narrowing)
        inherited (by decide) id
      exact ⟨field.render_oneLine, fun _ absent => by cases absent⟩
    · refine ⟨?_, fun _ absent => by cases absent⟩
      dsimp only [Member.optional]
      split
      · decide
      · exact quote_oneLine id
    · exact ⟨by decide, fun _ absent => by cases absent⟩

theorem declaration_onLines (faultless : (Job.ofListing schemas attributes settings).Faultless)
    (oneLined : ∀ s ∈ schemas, s.OneLined) :
    ∀ d ∈ (Job.ofListing schemas attributes settings).declarations, d.OnLines := by
  have interfaces := interface_onLines faultless oneLined
  intro d declared
  rcases mem_declarations.mp declared with ⟨i, member, rfl⟩ | ⟨_, rfl⟩ | ⟨_, _, rfl⟩
  · exact interfaces i member
  · trivial
  · intro id listed
    obtain ⟨i, member, rfl⟩ := List.mem_map.mp (List.mem_eraseDups.mp listed)
    exact (interfaces i member).id

/-- Without a banner nothing but the comments starts as comments do. -/
theorem withoutLines_output (faultless : (Job.ofListing schemas attributes settings).Faultless)
    (oneLined : ∀ s ∈ schemas, s.OneLined) (bare : settings.banner = none) :
    withoutLines docMark (Job.ofListing schemas attributes settings).output.code =
      (Job.ofListing schemas attributes { settings with emitDocs := false }).output.code := by
  have shaped := declaration_onLines faultless oneLined
  have undocumented : (Job.ofListing schemas attributes settings).undocumented =
      Job.ofListing schemas attributes { settings with emitDocs := false } := rfl
  have opening : (Job.ofListing schemas attributes settings).opening.code = "" := by
    rw [Job.opening, bare]
    rfl
  have opening' : (Job.ofListing schemas attributes settings).undocumented.opening.code = "" := opening
  rw [← undocumented, output_code_declarations, output_code_declarations, opening, opening', String.empty_append,
    String.empty_append, declarations_undocumented faultless, List.map_map]
  exact (Leaves.intercalate (by decide) fun d declared => (shaped d declared).leaves).eq

/-! ### Banner and map -/

variable {banner banner' : Option Banner} {docs map map' strict : Bool}

/-- The blocks ahead of the map. -/
def body (j : Job) : List String := j.interfaces.map Interface.render ++ (subtypeUnion? j.catalog).toList

theorem interfaces_presented : (Job.ofListing schemas attributes ⟨banner, docs, map, strict⟩).interfaces =
    (Job.ofListing schemas attributes ⟨banner', docs, map', strict⟩).interfaces := by
  refine List.filterMap_congr fun e _ => ?_
  rw [← interface?_report _ 0, ← interface?_report _ 0]
  congr 1
  refine report_congr ?_ ?_ ?_ 0 <;> rfl

theorem body_presented : (Job.ofListing schemas attributes ⟨banner, docs, map, strict⟩).body =
    (Job.ofListing schemas attributes ⟨banner', docs, map', strict⟩).body := by
  rw [body, body, interfaces_presented]

theorem output_code_without_map : (Job.ofListing schemas attributes ⟨banner, docs, false, strict⟩).output.code =
    (banner.map Banner.render).getD "" ++
      "\n".intercalate (Job.ofListing schemas attributes ⟨none, docs, false, strict⟩).body := by
  have blocks : (Job.ofListing schemas attributes ⟨banner, docs, false, strict⟩).blocks =
      (Job.ofListing schemas attributes ⟨banner, docs, false, strict⟩).body := List.append_nil _
  rw [output_code_joined, blocks, body_presented]
  rfl

theorem output_code_with_map : (Job.ofListing schemas attributes ⟨banner, docs, true, strict⟩).output.code =
    (banner.map Banner.render).getD "" ++
      "\n".intercalate ((Job.ofListing schemas attributes ⟨none, docs, false, strict⟩).body ++
        (entityTypeMap? ((Job.ofListing schemas attributes ⟨banner, docs, true, strict⟩).interfaces.map
          Interface.id)).toList) := by
  rw [output_code_joined, body_presented]
  rfl

theorem output_code_banner (banner : Banner) :
    (Job.ofListing schemas attributes ⟨some banner, docs, map, strict⟩).output.code =
      banner.render ++ (Job.ofListing schemas attributes ⟨none, docs, map, strict⟩).output.code := by
  cases map with
  | false => rw [output_code_without_map, output_code_without_map, Option.map_none, Option.getD_none,
      String.empty_append, Option.map_some, Option.getD_some]
  | true => rw [output_code_with_map, output_code_with_map, interfaces_presented, Option.map_none, Option.getD_none,
      String.empty_append, Option.map_some, Option.getD_some]

theorem output_code_map {ids : List String} {block : String} (registry : entityTypeMap? ids = some block)
    (declared : (Job.ofListing schemas attributes ⟨banner, docs, true, strict⟩).interfaces.map Interface.id = ids) :
    (Job.ofListing schemas attributes ⟨banner, docs, true, strict⟩).output.code =
      (Job.ofListing schemas attributes ⟨banner, docs, false, strict⟩).output.code ++ "\n" ++ block := by
  have some_block : (Job.ofListing schemas attributes ⟨none, docs, false, strict⟩).body ≠ [] := by
    intro none
    have undeclared := List.map_eq_nil_iff.mp (List.append_eq_nil_iff.mp none).1
    rw [← declared, interfaces_presented, undeclared] at registry
    cases registry
  rw [output_code_with_map, output_code_without_map, declared, registry, Option.toList_some,
    String.intercalate_append_of_ne_nil some_block (List.cons_ne_nil _ _), String.intercalate_singleton]
  simp only [String.append_assoc]

theorem output_code_without_interfaces
    (undeclared : (Job.ofListing schemas attributes ⟨banner, docs, true, strict⟩).interfaces = []) :
    (Job.ofListing schemas attributes ⟨banner, docs, true, strict⟩).output.code =
      (Job.ofListing schemas attributes ⟨banner, docs, false, strict⟩).output.code := by
  have registry : entityTypeMap? ([].map Interface.id) = none := rfl
  rw [output_code_with_map, output_code_without_map, undeclared, registry, Option.toList_none, List.append_nil]

end Job

/-- Passes that differ in banner, comments and entity type map fail alike, or have the same soft errors and
declare the same ids. Their code is the same apart from the banner ahead of it, the map behind it, if there is an
interface, and, where neither ids nor references hold line breaks, the lines of comments. -/
theorem generate_settings (nonempty : schemas ≠ []) (attributes : List Attribute) (strict : Bool) :
    (∃ failure, ∀ banner docs map, generate schemas attributes ⟨banner, docs, map, strict⟩ = .error failure) ∨
    ∃ errors interfaces, ∃ code : Option Banner → Bool → Bool → String,
      (∀ banner docs map, generate schemas attributes ⟨banner, docs, map, strict⟩ =
        .ok ⟨code banner docs map, errors, interfaces⟩) ∧
      (∀ banner docs map, code (some banner) docs map = banner.render ++ code none docs map) ∧
      (interfaces ≠ [] → ∃ block, entityTypeMap? interfaces = some block ∧
        ∀ banner docs, code banner docs true = code banner docs false ++ "\n" ++ block) ∧
      (interfaces = [] → ∀ banner docs, code banner docs true = code banner docs false) ∧
      ((∀ s ∈ schemas, s.OneLined) → ∀ map, withoutLines docMark (code none true map) = code none false map) := by
  -- Any of the passes serves for the others to be compared with.
  have compared (banner : Option Banner) (docs map : Bool) :=
    @generate_compared schemas attributes attributes ⟨none, true, true, strict⟩ ⟨banner, docs, map, strict⟩ rfl
  cases done : generate schemas attributes ⟨none, true, true, strict⟩ with
  | error failure =>
    refine .inl ⟨failure, fun banner docs map => ?_⟩
    rcases compared banner docs map with ⟨other, failed, failed'⟩ | ⟨_, _, succeeded, _⟩
    · obtain rfl := Except.error.inj (done.symm.trans failed)
      exact failed'
    · cases done.symm.trans succeeded
  | ok o =>
    have each (banner : Option Banner) (docs map : Bool) :
        (Job.ofListing schemas attributes ⟨banner, docs, map, strict⟩).Faultless ∧
        (Job.ofListing schemas attributes ⟨banner, docs, map, strict⟩).interfaces.map Interface.id = o.interfaces ∧
        generate schemas attributes ⟨banner, docs, map, strict⟩ =
          .ok ⟨(Job.ofListing schemas attributes ⟨banner, docs, map, strict⟩).output.code, o.errors, o.interfaces⟩ := by
      rcases compared banner docs map with ⟨_, failed, _⟩ | ⟨first, o', succeeded, done', errors, interfaces⟩
      · cases done.symm.trans failed
      · obtain rfl := Except.ok.inj (done.symm.trans succeeded)
        obtain ⟨_, faultless, rfl⟩ := generate_eq_ok nonempty done'
        rw [done', errors, interfaces]
        exact ⟨faultless, (Job.output_interfaces _).symm, rfl⟩
    refine .inr ⟨o.errors, o.interfaces,
      fun banner docs map => (Job.ofListing schemas attributes ⟨banner, docs, map, strict⟩).output.code,
      fun banner docs map => (each banner docs map).2.2, ?_, ?_, ?_, ?_⟩
    · intro banner docs map
      exact Job.output_code_banner banner
    · intro declared
      have registry : entityTypeMap? o.interfaces =
          some (Declaration.entityTypeMap o.interfaces.eraseDups).render := by
        rw [entityTypeMap?_eq, if_neg declared]
      exact ⟨_, registry, fun banner docs => Job.output_code_map registry (each banner docs true).2.1⟩
    · intro none banner docs
      have undeclared := (each banner docs true).2.1
      rw [none, List.map_eq_nil_iff] at undeclared
      exact Job.output_code_without_interfaces undeclared
    · intro oneLined map
      exact Job.withoutLines_output (each none true map).1 oneLined rfl

/-- A description that holds a line break and a comment's start and end, and a reference to another schema. -/
def documented : List EntitySchema :=
  [(EntitySchema.named "Shot").addProperty "note"
      { Property.typed "string" with description := some "first */\n  /** second" },
    (EntitySchema.named "Take").addProperty "shot" (.referring "Shot")]

theorem documented_settings : (∀ s ∈ documented, s.OneLined) ∧
    ∃ errors interfaces shown bare, withoutLines docMark shown = bare ∧
      generate documented [] ⟨none, true, true, false⟩ = .ok ⟨shown, errors, interfaces⟩ ∧
      generate documented [] ⟨none, false, true, false⟩ = .ok ⟨bare, errors, interfaces⟩ ∧
      generate documented [] ⟨some ⟨"Studio", none, none⟩, true, true, false⟩ =
        .ok ⟨(Banner.mk "Studio" none none).render ++ shown, errors, interfaces⟩ := by
  have oneLined : ∀ s ∈ documented, s.OneLined := by
    intro s listed
    simp only [documented, List.mem_cons, List.not_mem_nil, or_false] at listed
    rcases listed with rfl | rfl
    · refine ⟨fun id named => ?_, fun entry declared target refers => ?_⟩
      · obtain rfl : "Shot" = id := Option.some.inj named
        decide
      · obtain rfl := List.mem_singleton.mp declared
        rcases refers with own | ⟨_, absent, _⟩
        · cases own
        · cases absent
    · refine ⟨fun id named => ?_, fun entry declared target refers => ?_⟩
      · obtain rfl : "Take" = id := Option.some.inj named
        decide
      · obtain rfl := List.mem_singleton.mp declared
        rcases refers with own | ⟨_, absent, _⟩
        · obtain rfl : "Shot" = target := Option.some.inj own
          decide
        · cases absent
  refine ⟨oneLined, ?_⟩
  have done : generate documented [] ⟨none, true, true, false⟩ = .ok _ := rfl
  have nonempty : documented ≠ [] := List.cons_ne_nil _ _
  rcases generate_settings nonempty [] false with
    ⟨_, failed⟩ | ⟨errors, interfaces, code, succeeded, banner, _, _, comments⟩
  · cases done.symm.trans (failed none true true)
  · have with_banner := succeeded (some ⟨"Studio", none, none⟩) true true
    rw [banner] at with_banner
    exact ⟨errors, interfaces, _, _, comments oneLined true, succeeded none true true,
      succeeded none false true, with_banner⟩

end EntityTypings
