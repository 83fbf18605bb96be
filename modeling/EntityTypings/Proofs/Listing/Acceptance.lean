import EntityTypings.Listing
import EntityTypings.Proofs.Json.Parts
import Mathlib.Data.List.Forall2

/-!
# Which documents are listings

The forms of entries, and what reading a document as a listing comes to: `documents_judged`. A document is
accepted exactly if each of its entries has the form, and otherwise its first entry without the form decides what
is wrong with it.
-/

namespace EntityTypings

open Json

/-! ### Forms of schemas -/

structure Items.Form (ms : List (String × Value)) : Prop where
  reference : OrNull Value.IsText (ms.lookup "$ref")
  type : OrNull Value.IsText (ms.lookup "type")

structure Property.Form (ms : List (String × Value)) : Prop where
  type : OrNull Value.IsText (ms.lookup "type")
  reference : OrNull Value.IsText (ms.lookup "$ref")
  items : OrNull (Value.IsObject Items.Form) (ms.lookup "items")
  description : OrNull Value.IsText (ms.lookup "description")

/-- An alias marker is an id, or an object with an id. -/
def AliasMarker.Form (v : Value) : Prop := v.IsText ∨ v.IsObject (HasText "id")

def EntitySchema.PropertiesForm (ms : List (String × Value)) : Prop := ∀ m ∈ ms, m.2.IsObject Property.Form

structure EntitySchema.Form (ms : List (String × Value)) : Prop where
  id : OrNull Value.IsText (ms.lookup "id")
  mixin : OrNull (Value.IsObject (HasText "$ref")) (ms.lookup "$mixin")
  aliasFor : OrNull AliasMarker.Form (ms.lookup "alias_for")
  properties : OrNull (Value.IsObject EntitySchema.PropertiesForm) (ms.lookup "properties")
  required : OrNull Value.IsTexts (ms.lookup "required")
  primaryKey : OrNull Value.IsTexts (ms.lookup "primary_key")
  immutable : OrNull Value.IsTexts (ms.lookup "immutable")
  computed : OrNull Value.IsTexts (ms.lookup "computed")

structure Attribute.Form (ms : List (String × Value)) : Prop where
  key : HasText "key" ms
  hierarchical : IfPresent (fun v => ∃ b, v = .bool b) (ms.lookup "is_hierarchical")
  objectType : OrNull (Value.IsObject (HasText "name")) (ms.lookup "object_type")
  valueType : OrNull (Value.IsObject (HasText "name")) (ms.lookup "type")

variable {ms : List (String × Value)}

theorem Items.ofMembers_accepts (ms : List (String × Value)) : Accepts (Items.ofMembers ms) ↔ Items.Form ms := by
  have text (name : String) : Accepts (nullable decodeString (ms.lookup name)) ↔ _ :=
    nullable_accepts fun v => decodeString_accepts (v := v)
  refine (accepts_bind fun _ => accepts_bind fun _ => accepts_ok _).trans ?_
  rw [text, text]
  constructor
  · rintro ⟨reference, type, _⟩
    exact ⟨reference, type⟩
  · rintro ⟨reference, type⟩
    exact ⟨reference, type, trivial⟩

theorem Property.ofMembers_accepts (ms : List (String × Value)) :
    Accepts (Property.ofMembers ms) ↔ Property.Form ms := by
  have text (name : String) : Accepts (nullable decodeString (ms.lookup name)) ↔ _ :=
    nullable_accepts fun v => decodeString_accepts (v := v)
  have items : Accepts (decodeItems (ms.lookup "items")) ↔ _ :=
    nullable_accepts (objectPart_accepts Items.ofMembers_accepts)
  refine (accepts_bind fun _ => accepts_bind fun _ => accepts_bind fun _ => accepts_bind fun _ => accepts_ok _).trans ?_
  rw [text, text, text, items]
  constructor
  · rintro ⟨reference, description, items, type, _⟩
    exact ⟨type, reference, items, description⟩
  · rintro ⟨type, reference, items, description⟩
    exact ⟨reference, description, items, type, trivial⟩

theorem AliasMarker.decode_accepts (v : Value) : Accepts (AliasMarker.decode v) ↔ AliasMarker.Form v := by
  cases v with
  | obj ms =>
    simp only [decode, Form, Value.IsText, Value.IsObject, HasText, reduceCtorEq, exists_const, false_or,
      Value.obj.injEq, exists_eq_left']
    split
    next id named => simp [accepts_ok, named]
    next unnamed =>
      simp only [accepts_error, false_iff, not_exists]
      exact unnamed
  | _ => simp [decode, accepts_ok, accepts_error, Form, Value.IsText, Value.IsObject]

namespace EntitySchema

theorem decodeProperty_accepts (entry : String × Value) :
    Accepts (decodeProperty entry) ↔ entry.2.IsObject Property.Form := by
  refine (accepts_bind fun _ => accepts_ok _).trans ?_
  rw [and_true, objectPart_accepts Property.ofMembers_accepts]

theorem decodeProperties_accepts {part : Option Value} :
    Accepts (decodeProperties part) ↔ OrNull (Value.IsObject PropertiesForm) part := by
  unfold decodeProperties
  split
  · exact (accepts_ok _).trans orNull_none.symm
  · exact (accepts_ok _).trans orNull_null.symm
  next ms =>
    rw [accepts_map, accepts_mapM, orNull_some (by simp)]
    simp [decodeProperty_accepts, Value.IsObject, PropertiesForm]
  next v notNull notObject =>
    rw [orNull_some notNull]
    refine (accepts_error _).trans (iff_of_false not_false ?_)
    rintro ⟨ms, rfl, _⟩
    exact notObject ms rfl

theorem ofMembers_accepts (ms : List (String × Value)) : Accepts (ofMembers ms) ↔ Form ms := by
  have id : Accepts (nullable decodeString (ms.lookup "id")) ↔ _ :=
    nullable_accepts fun v => decodeString_accepts (v := v)
  have mixin : Accepts (decodeMixin (ms.lookup "$mixin")) ↔ _ :=
    nullable_accepts (objectPart_accepts referenceForm.ofMembers_accepts)
  have aliasFor : Accepts (nullable AliasMarker.decode (ms.lookup "alias_for")) ↔ _ :=
    nullable_accepts AliasMarker.decode_accepts
  refine (accepts_bind fun _ => accepts_bind fun _ => accepts_bind fun _ => accepts_bind fun _ =>
    accepts_bind fun _ => accepts_bind fun _ => accepts_bind fun _ => accepts_bind fun _ => accepts_ok _).trans ?_
  rw [id, mixin, aliasFor, decodeProperties_accepts, decodeNames_accepts, decodeNames_accepts,
    decodeNames_accepts, decodeNames_accepts]
  constructor
  · rintro ⟨mixin, aliasFor, computed, id, immutable, primaryKey, properties, required, _⟩
    exact ⟨id, mixin, aliasFor, properties, required, primaryKey, immutable, computed⟩
  · rintro ⟨id, mixin, aliasFor, properties, required, primaryKey, immutable, computed⟩
    exact ⟨mixin, aliasFor, computed, id, immutable, primaryKey, properties, required, trivial⟩

end EntitySchema

namespace Attribute

theorem hasText_iff {name : String} :
    HasText name ms ↔ ∃ text, absentable decodeString (ms.lookup name) = .ok (some text) := by
  unfold HasText
  cases ms.lookup name with
  | none => simp [absentable]
  | some v => cases v <;> simp [absentable, decodeString, Value.wrongForm, Except.map]

theorem ofMembers_accepts (ms : List (String × Value)) : Accepts (ofMembers ms) ↔ Form ms := by
  have hierarchical : Accepts (absentable decodeBool (ms.lookup "is_hierarchical")) ↔ _ :=
    absentable_accepts fun v => decodeBool_accepts (v := v)
  have named (name : String) : Accepts (decodeNamed (ms.lookup name)) ↔ OrNull (Value.IsObject (HasText "name")) _ :=
    nullable_accepts (objectPart_accepts namedForm.ofMembers_accepts)
  -- the key is asked for behind the parts that are read after it
  refine (accepts_bind_iff.trans (exists_congr fun h => and_congr_right fun _ => accepts_bind_iff.trans
    (exists_congr fun key => and_congr_right fun _ => accepts_bind fun _ => accepts_bind fun _ =>
      (?last : _ ↔ ∃ text, key = some text)))).trans ?parts
  case last =>
    cases key with
    | none => simp [accepts_error]
    | some text => simp [accepts_ok]
  case parts =>
    rw [named, named]
    constructor
    · rintro ⟨h, read, key, readKey, objectType, valueType, text, rfl⟩
      exact ⟨hasText_iff.mpr ⟨text, readKey⟩, hierarchical.mp ⟨h, read⟩, objectType, valueType⟩
    · rintro ⟨key, flag, objectType, valueType⟩
      obtain ⟨h, read⟩ := hierarchical.mpr flag
      obtain ⟨text, readKey⟩ := hasText_iff.mp key
      exact ⟨h, read, some text, readKey, objectType, valueType, text, rfl⟩

end Attribute

/-! ### Listings -/

namespace Listing

variable {α : Type} {entries : String} {decodeEntry : List (String × Value) → Except Mismatch α}
  {form : List (String × Value) → Prop} {document : Value} {vs : List Value} {found : List α}
  {error : ListingError}

/-- What is wrong with a document, told by its first bad entry. -/
inductive Refusal (entries : String) (form : List (String × Value) → Prop)
    (decodeEntry : List (String × Value) → Except Mismatch α) (document : Value) : ListingError → Prop where
  | notList (noList : ∀ vs, document ≠ .arr vs) : Refusal entries form decodeEntry document (.notList entries)
  | notObject {before : List Value} {bad : Value} {after : List Value}
      (split : document = .arr (before ++ bad :: after)) (sound : ∀ v ∈ before, v.IsObject form)
      (noObject : ∀ ms, bad ≠ .obj ms) :
      Refusal entries form decodeEntry document (.entryNotObject entries before.length)
  | badEntry {before : List Value} {ms : List (String × Value)} {after : List Value} {reason : Mismatch}
      (split : document = .arr (before ++ .obj ms :: after)) (sound : ∀ v ∈ before, v.IsObject form)
      (bad : ¬form ms) (told : decodeEntry ms = .error reason) :
      Refusal entries form decodeEntry document (.json ⟨.mismatch reason, none⟩)

/-- What a document comes to as a listing of entries of a form. -/
structure Judgement (entries : String) (form : List (String × Value) → Prop)
    (decodeEntry : List (String × Value) → Except Mismatch α) (document : Value)
    (result : Except ListingError (List α)) : Prop where
  accepted : Accepts result ↔ ∃ vs, document = .arr vs ∧ ∀ v ∈ vs, v.IsObject form
  /-- Each entry is read on its own, in order. -/
  entrywise : ∀ found, result = .ok found → ∃ vs, document = .arr vs ∧
    List.Forall₂ (fun v a => ∃ ms, v = .obj ms ∧ decodeEntry ms = .ok a) vs found
  refused : ∀ error, result = .error error ↔ Refusal entries form decodeEntry document error

theorem decodeEntries_eq_ok (index : Nat) : decodeEntries entries decodeEntry index vs = .ok found ↔
    List.Forall₂ (fun v a => ∃ ms, v = .obj ms ∧ decodeEntry ms = .ok a) vs found := by
  induction vs generalizing index found with
  | nil => simp [decodeEntries, eq_comm]
  | cons v rest ih =>
    cases v with
    | obj ms =>
      simp only [decodeEntries, List.forall₂_cons_left_iff, Value.obj.injEq, exists_eq_left', ← ih (index + 1)]
      cases decodeEntry ms with
      | error reason => simp [mapError_error, bind, Except.bind]
      | ok a =>
        cases decodeEntries entries decodeEntry (index + 1) rest <;>
          simp [mapError_ok, bind, Except.bind, eq_comm]
    | _ => simp [decodeEntries, List.forall₂_cons_left_iff]

/-- The entry behind those that are read in order stops the reading. -/
theorem decodeEntries_stop (index : Nat) {before : List Value} {bad : Value} {after : List Value}
    (read : List.Forall₂ (fun v a => ∃ ms, v = .obj ms ∧ decodeEntry ms = .ok a) before found)
    (stops : decodeEntries entries decodeEntry (index + before.length) (bad :: after) = .error error) :
    decodeEntries entries decodeEntry index (before ++ bad :: after) = .error error := by
  induction read generalizing index with
  | nil => exact stops
  | cons first _ ih =>
    obtain ⟨ms, rfl, decoded⟩ := first
    rw [List.length_cons, Nat.add_comm _ 1, ← Nat.add_assoc] at stops
    simp [decodeEntries, decoded, ih (index + 1) stops, mapError_ok, bind, Except.bind]

theorem entries_read (accepts : ∀ ms, Accepts (decodeEntry ms) ↔ form ms) :
    (∃ found, List.Forall₂ (fun v a => ∃ ms, v = .obj ms ∧ decodeEntry ms = .ok a) vs found) ↔
      ∀ v ∈ vs, v.IsObject form := by
  have entry (v : Value) : (∃ a ms, v = .obj ms ∧ decodeEntry ms = .ok a) ↔ v.IsObject form := by
    rw [exists_comm]
    simp only [exists_and_left, Value.IsObject, ← accepts]
    rfl
  induction vs with
  | nil => exact iff_of_true ⟨[], .nil⟩ (List.forall_mem_nil _)
  | cons v rest ih =>
    refine Iff.trans ?_ ((and_congr (entry v) ih).trans List.forall_mem_cons.symm)
    constructor
    · rintro ⟨_, read⟩
      cases read with
      | cons first others => exact ⟨⟨_, first⟩, _, others⟩
    · rintro ⟨⟨a, first⟩, found, others⟩
      exact ⟨a :: found, .cons first others⟩

open Classical in
/-- Either all entries have the form, or one of them is the first without it. -/
theorem sound_or_first_bad (form : List (String × Value) → Prop) (vs : List Value) :
    (∀ v ∈ vs, v.IsObject form) ∨
      ∃ before bad after, vs = before ++ bad :: after ∧ (∀ v ∈ before, v.IsObject form) ∧ ¬bad.IsObject form := by
  cases first : vs.find? (fun v => ¬v.IsObject form) with
  | none => exact .inl (by simpa using first)
  | some bad =>
    obtain ⟨without, before, after, split, sound⟩ := List.find?_eq_some_iff_append.mp first
    exact .inr ⟨before, bad, after, split, by simpa using sound, by simpa using without⟩

theorem decode_stop (accepts : ∀ ms, Accepts (decodeEntry ms) ↔ form ms)
    (refusal : Refusal entries form decodeEntry document error) :
    decode entries decodeEntry document = .error error := by
  cases refusal with
  | notList noList =>
    cases document with
    | arr vs => exact absurd rfl (noList vs)
    | _ => rfl
  | @notObject before bad after split sound noObject =>
    subst split
    obtain ⟨found, read⟩ := (entries_read accepts).mpr sound
    refine decodeEntries_stop 0 read ?_
    cases bad with
    | obj ms => exact absurd rfl (noObject ms)
    | _ => simp [decodeEntries]
  | badEntry split sound _ told =>
    subst split
    obtain ⟨found, read⟩ := (entries_read accepts).mpr sound
    refine decodeEntries_stop 0 read ?_
    simp [decodeEntries, told, mapError_error, bind, Except.bind]

theorem decode_judged (accepts : ∀ ms, Accepts (decodeEntry ms) ↔ form ms) (document : Value) :
    Judgement entries form decodeEntry document (decode entries decodeEntry document) := by
  have whole (vs : List Value) : Accepts (decode entries decodeEntry (.arr vs)) ↔ ∀ v ∈ vs, v.IsObject form := by
    rw [← entries_read accepts]
    exact exists_congr fun _ => decodeEntries_eq_ok 0
  constructor
  case accepted =>
    cases document with
    | arr vs => simp [whole]
    | _ => simp [decode, accepts_error]
  case entrywise =>
    intro found read
    cases document with
    | arr vs => exact ⟨vs, rfl, (decodeEntries_eq_ok 0).mp read⟩
    | _ => cases read
  case refused =>
    intro error
    refine ⟨fun failed => ?_, decode_stop accepts⟩
    -- one document is refused in one way, so that it is enough to find some refusal
    suffices told : ∃ other, Refusal entries form decodeEntry document other by
      obtain ⟨other, refusal⟩ := told
      obtain rfl : other = error := Except.error.inj ((decode_stop accepts refusal).symm.trans failed)
      exact refusal
    cases document with
    | arr vs =>
      rcases sound_or_first_bad form vs with sound | ⟨before, bad, after, rfl, sound, without⟩
      · obtain ⟨found, read⟩ := (whole vs).mpr sound
        cases failed.symm.trans read
      · cases bad with
        | obj ms =>
          have unformed : ¬form ms := fun formed => without ⟨ms, rfl, formed⟩
          cases told : decodeEntry ms with
          | ok a => exact absurd ((accepts ms).mp ⟨a, told⟩) unformed
          | error reason => exact ⟨_, .badEntry rfl sound unformed told⟩
        | _ => exact ⟨_, .notObject rfl sound (by simp)⟩
    | _ => exact ⟨_, .notList (by simp)⟩

end Listing

/-- A text that is no JSON is refused as such. A document is judged by the forms of its entries, the first entry
without the form before all later ones. -/
theorem documents_judged (text : String) :
    (∀ error, Value.read text = .error error →
      readSchemas text = .error (.json error) ∧ readAttributes text = .error (.json error)) ∧
    ∀ document, Value.read text = .ok document →
      Listing.Judgement "schema" EntitySchema.Form EntitySchema.ofMembers document (readSchemas text) ∧
      Listing.Judgement "custom attribute configuration" Attribute.Form Attribute.ofMembers document
        (readAttributes text) := by
  refine ⟨fun error failed => ?_, fun document read => ?_⟩
  · simp [readSchemas, readAttributes, Listing.read, failed, mapError_error, bind, Except.bind]
  · simp only [readSchemas, readAttributes, Listing.read, read, mapError_ok, bind, Except.bind]
    exact ⟨Listing.decode_judged EntitySchema.ofMembers_accepts document,
      Listing.decode_judged Attribute.ofMembers_accepts document⟩

/-- A schema, and behind it a list that holds one. -/
def mixedListing : String :=
  "[\x7b\"alias_for\":\x7b\"id\":\"Task\"\x7d,\"properties\":\x7b\"tags\":\x7b\"items\":\x7b\"type\":null\x7d\x7d\x7d\x7d,[\"Shot\"]]"

def tagged : List (String × Value) :=
  [("alias_for", .obj [("id", .str "Task")]),
    ("properties", .obj [("tags", .obj [("items", .obj [("type", .null)])])])]

theorem mixed_listing_refused :
    readSchemas "[7" = .error (.json ⟨.malformed .endInList, some ⟨1, 2⟩⟩) ∧
      EntitySchema.Form tagged ∧ readSchemas mixedListing = .error (.entryNotObject "schema" 1) := by
  have cut : Value.read "[7" = .error ⟨.malformed .endInList, some ⟨1, 2⟩⟩ := by with_unfolding_all rfl
  have read : Value.read mixedListing = .ok (.arr ([.obj tagged] ++ .arr [.str "Shot"] :: [])) := by with_unfolding_all rfl
  have formed : EntitySchema.Form tagged := (EntitySchema.ofMembers_accepts tagged).mp ⟨_, rfl⟩
  have judged := ((documents_judged mixedListing).2 _ read).1
  refine ⟨((documents_judged _).1 _ cut).1, formed, (judged.refused _).mpr ?_⟩
  exact .notObject rfl (List.forall_mem_singleton.mpr ⟨_, rfl, formed⟩) (by simp)

end EntityTypings
