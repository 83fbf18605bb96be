import EntityTypings.Proofs.Generation.Settings
import EntityTypings.Proofs.Generation.Subtypes
import EntityTypings.Proofs.TypeScript.Literals
import Mathlib.Data.List.Nodup

/-!
# The entity type map and the declared interfaces

The map has an entry for each declared interface, under a key that no other interface has, and the text of the map
tells which interfaces it is about: `mapText_injective`. `entity_type_map_bijective` says so of the map of any list of
ids, and of the map that a pass puts out.
-/

namespace EntityTypings

open TypeScript

namespace TypeScript

/-! ### Entries of the map -/

/-- The key of an interface in the map, and the type that stands under it. -/
def mapPair (id : String) : String × String := (propertyKey id, id)

/-- The text of a map with these keys and types. -/
def mapText (entries : List (String × String)) : String :=
  "export interface EntityTypeMap \x7b\n" ++
    String.join (entries.map fun e => "  " ++ e.1 ++ ": " ++ e.2 ++ ";\n") ++
    "\x7d\n\nexport type EntityType = keyof EntityTypeMap;\n"

theorem mapText_pairs (ids : List String) : mapText (ids.map mapPair) = (Declaration.entityTypeMap ids).render := by
  unfold Declaration.render mapText
  rw [List.map_map]
  rfl

theorem mapPairs_distinct {ids : List String} (distinct : ids.Nodup) : ((ids.map mapPair).map Prod.fst).Nodup := by
  rw [List.map_map]
  exact distinct.map fun _ _ => propertyKey_injective

theorem mapEntry_append (id rest : String) : (mapEntry id ++ rest).toList =
    ' ' :: ' ' :: ((propertyKey id).toList ++ ':' :: ' ' :: (id.toList ++ ';' :: '\n' :: rest.toList)) := by
  simp only [mapEntry, String.toList_append, List.append_assoc]
  rfl

/-- What stands in front of a text that does not start as an entry tells which entries stand there. -/
theorem mapEntries_cancel {ids ids' : List String} {rest : String} (closed : rest.toList.head? ≠ some ' ')
    (same : String.join (ids.map mapEntry) ++ rest = String.join (ids'.map mapEntry) ++ rest) : ids = ids' := by
  have ended (id : String) (more : List String) : rest ≠ String.join ((id :: more).map mapEntry) ++ rest := by
    intro same
    rw [List.map_cons, String.join_cons, String.append_assoc, ← String.toList_inj, mapEntry_append] at same
    rw [same] at closed
    exact closed rfl
  have key (more : List Char) : EndsKey (':' :: more) := by
    rintro _ ⟨⟩
    decide
  -- By induction on both lists: first entries agree in their keys, so in their ids and in what is behind them.
  induction ids generalizing ids' with
  | nil =>
    cases ids' with
    | nil => rfl
    | cons id' ids' => exact absurd (by simpa using same) (ended id' ids')
  | cons id ids ih =>
    cases ids' with
    | nil => exact absurd (by simpa using same.symm) (ended id ids)
    | cons id' ids' =>
      rw [List.map_cons, List.map_cons, String.join_cons, String.join_cons, String.append_assoc, String.append_assoc,
        ← String.toList_inj, mapEntry_append, mapEntry_append] at same
      simp only [List.cons.injEq, true_and] at same
      obtain ⟨rfl, behind⟩ := propertyKey_append_inj (key _) (key _) same
      simp only [List.cons.injEq, true_and, List.append_cancel_left_eq] at behind
      rw [ih (String.toList_inj.mp behind)]

theorem mapText_injective {ids ids' : List String}
    (same : mapText (ids.map mapPair) = mapText (ids'.map mapPair)) : ids = ids' := by
  have lines (ids : List String) : mapText (ids.map mapPair) = "export interface EntityTypeMap \x7b\n" ++
      (String.join (ids.map mapEntry) ++ "\x7d\n\nexport type EntityType = keyof EntityTypeMap;\n") := by
    rw [mapText_pairs]
    exact String.append_assoc
  rw [lines, lines, String.append_right_inj] at same
  exact mapEntries_cancel (by decide) same

/-- A text is a map with an entry for each of the listed ids, in the order in which they first occur, under keys of
which no two agree. It is the text of no other entries. -/
structure MapOf (text : String) (listed names : List String) : Prop where
  first : FirstOccurrences names listed
  written : text = mapText (names.map mapPair)
  keys : ((names.map mapPair).map Prod.fst).Nodup
  only : ∀ names', text = mapText (names'.map mapPair) → names' = names

theorem entityTypeMap?_eq_none {ids : List String} : entityTypeMap? ids = none ↔ ids = [] := by
  rw [entityTypeMap?_eq]
  split <;> simp [*]

theorem mapOf_entityTypeMap? {ids : List String} {text : String} (made : entityTypeMap? ids = some text) :
    MapOf text ids ids.eraseDups := by
  rw [entityTypeMap?_eq] at made
  split at made
  · cases made
  · obtain rfl := Option.some.inj made
    have written := (mapText_pairs ids.eraseDups).symm
    exact ⟨.eraseDups ids, written, mapPairs_distinct (FirstOccurrences.eraseDups ids).distinct,
      fun names' same => mapText_injective (same.symm.trans written)⟩

theorem MapOf.line {text id : String} {listed names : List String} (map : MapOf text listed names)
    (member : id ∈ listed) : ∃ before after, text = before ++ mapEntry id ++ after := by
  obtain ⟨front, rest, rfl⟩ := List.append_of_mem ((map.first.mem_iff id).mpr member)
  refine ⟨"export interface EntityTypeMap \x7b\n" ++ String.join (front.map mapEntry),
    String.join (rest.map mapEntry) ++ "\x7d\n\nexport type EntityType = keyof EntityTypeMap;\n", ?_⟩
  rw [map.written, mapText_pairs]
  unfold Declaration.render
  dsimp only
  simp only [List.map_append, List.map_cons, String.join_append, String.join_cons, String.append_assoc]

end TypeScript

variable {schemas : List EntitySchema}

theorem mem_listedIds {id : String} : id ∈ listedIds schemas ↔ id ≠ "" ∧ ∃ s ∈ schemas, s.declaredId = some id := by
  rw [listedIds, List.mem_filterMap]
  simp only [EntitySchema.id?_eq_some]
  constructor
  · rintro ⟨s, listed, declared, nonempty⟩
    exact ⟨nonempty, s, listed, declared⟩
  · rintro ⟨nonempty, s, listed, declared⟩
    exact ⟨s, listed, declared, nonempty⟩

/-- A pass that is to put out the map puts out, behind what it would without, the map of its interfaces, if there are
any. -/
theorem generate_with_map {attributes : List Attribute} {settings : Settings} {o : Output}
    (wanted : settings.emitEntityTypeMap = true) (done : generate schemas attributes settings = .ok o) :
    ∃ bare, generate schemas attributes { settings with emitEntityTypeMap := false } = .ok bare ∧
      bare.interfaces = o.interfaces ∧ (o.interfaces = [] → o.code = bare.code) ∧
      ∀ text, entityTypeMap? o.interfaces = some text → o.code = bare.code ++ "\n" ++ text := by
  by_cases nonempty : schemas = []
  · subst nonempty
    obtain rfl : Output.empty.pushError .noSchemas = o := Except.ok.inj done
    exact ⟨_, rfl, rfl, fun _ => rfl, fun text made => by cases made⟩
  · obtain ⟨banner, docs, map, strict⟩ := settings
    obtain rfl : map = true := wanted
    obtain ⟨accepted, faultless, rfl⟩ := generate_eq_ok nonempty done
    have faultless' : (Job.ofListing schemas attributes ⟨banner, docs, false, strict⟩).Faultless := faultless
    refine ⟨_, (generate_eq_ok_iff nonempty).mpr ⟨accepted, faultless', rfl⟩, ?_, fun none => ?_, fun text made => ?_⟩
    · exact (Job.output_ids faultless').trans (Job.output_ids faultless).symm
    · rw [Job.output_interfaces, List.map_eq_nil_iff] at none
      exact Job.output_code_without_interfaces none
    · exact Job.output_code_map made (Job.output_interfaces _).symm

/-- There is a map exactly if there is an interface. It has one entry for each id, in the order in which the ids first
occur, under keys of which no two agree. The map of a pass is that of the ids of the listing, none of them empty, and
the typed context stands in it without its parameter. -/
theorem entity_type_map_bijective :
    (∀ ids, (entityTypeMap? ids = none ↔ ids = []) ∧
      ∀ text, entityTypeMap? ids = some text → ∃ names, MapOf text ids names) ∧
    ∀ (schemas : List EntitySchema) (attributes : List Attribute) (settings : Settings) (o : Output),
      settings.emitEntityTypeMap = true → generate schemas attributes settings = .ok o →
      (∀ id, id ∈ o.interfaces ↔ id ≠ "" ∧ ∃ s ∈ schemas, s.declaredId = some id) ∧
      ∃ bare, generate schemas attributes { settings with emitEntityTypeMap := false } = .ok bare ∧
        bare.interfaces = o.interfaces ∧ (o.interfaces = [] → o.code = bare.code) ∧
        (o.interfaces ≠ [] → ∃ text names, o.code = bare.code ++ "\n" ++ text ∧ MapOf text o.interfaces names ∧
          (Dialect.typedContext ∈ o.interfaces →
            ∃ before after, text = before ++ "  TypedContext: TypedContext;\n" ++ after)) := by
  refine ⟨fun ids => ⟨entityTypeMap?_eq_none, fun text made => ⟨_, mapOf_entityTypeMap? made⟩⟩, ?_⟩
  intro schemas attributes settings o wanted done
  obtain ⟨_, _, interfaces, _⟩ := generate_eq_ok_declarations done
  obtain ⟨bare, without, same, unchanged, added⟩ := generate_with_map wanted done
  refine ⟨fun id => by rw [interfaces, mem_listedIds], bare, without, same, unchanged, fun declared => ?_⟩
  obtain ⟨text, made⟩ := Option.ne_none_iff_exists'.mp (mt entityTypeMap?_eq_none.mp declared)
  have map := mapOf_entityTypeMap? made
  exact ⟨text, _, added text made, map, map.line⟩

/-- Ids that are repeated, empty, missing, and written in quotes as keys. -/
def crowded : List EntitySchema :=
  [.named "Shot", .named "frame-rate", .named "", .named "TypedContext", .empty, .named "frame-rate", .named "Shot"]

theorem crowded_map_bijective : ∃ o bare text, generate crowded [] .standard = .ok o ∧
    o.interfaces = ["Shot", "frame-rate", "TypedContext", "frame-rate", "Shot"] ∧
    o.code = bare ++ "\n" ++ text ∧ MapOf text o.interfaces ["Shot", "frame-rate", "TypedContext"] ∧
    ∃ before after, text = before ++ "  TypedContext: TypedContext;\n" ++ after := by
  have done : generate crowded [] .standard = .ok _ := rfl
  obtain ⟨_, passes⟩ := entity_type_map_bijective
  obtain ⟨_, bare, _, _, _, added⟩ := passes _ _ _ _ rfl done
  obtain ⟨text, names, code, map, typed⟩ := added (List.cons_ne_nil _ _)
  have first : FirstOccurrences ["Shot", "frame-rate", "TypedContext"]
      ["Shot", "frame-rate", "TypedContext", "frame-rate", "Shot"] :=
    FirstOccurrences.eraseDups ["Shot", "frame-rate", "TypedContext", "frame-rate", "Shot"]
  obtain rfl : names = ["Shot", "frame-rate", "TypedContext"] := map.first.unique first
  exact ⟨_, bare.code, text, done, rfl, code, map, typed (by decide)⟩

end EntityTypings
