import EntityTypings.Proofs.Text.Lines
import EntityTypings.Proofs.TypeScript.Typing
import EntityTypings.TypeScript.Narrowing

/-!
# Types on one line

A type is written on one line if the names in it are, whatever its literals and field names hold:
`TypeExpr.Named.render_oneLine`. The names in the type of a property are its references, `Typing.named`, and those
in the type of narrowed attributes are the inherited element and `Omit`, `Narrowing.fieldType_named`.
-/

namespace EntityTypings

/-- A property has a reference, or its items have it. -/
def Property.RefersTo (p : Property) (target : String) : Prop :=
  p.reference = some target ∨ ∃ items, p.items = some items ∧ items.reference = some target

namespace TypeScript

open Text (OneLine oneLine_append oneLine_intercalate)

/-! ### Literals and member names -/

theorem quotedChar_unbroken (c : Char) : '\n' ∉ quotedChar c := by
  unfold quotedChar
  split
  · decide
  · split
    · decide
    · split
      · decide
      next visible =>
        rw [List.mem_singleton]
        exact Ne.symm visible

theorem quote_oneLine (s : String) : OneLine (quote s) := by
  intro broken
  rw [quote, String.toList_ofList, List.cons_append, List.mem_cons, List.mem_append, List.mem_flatMap] at broken
  rcases broken with first | ⟨c, _, inside⟩ | last
  · exact absurd first (by decide)
  · exact quotedChar_unbroken c inside
  · exact absurd (List.mem_singleton.mp last) (by decide)

theorem identifier_chars {name : String} (plain : isIdentifier name = true) :
    ∃ c s, name.toList = c :: s ∧ isIdentifierStart c = true ∧ ∀ d ∈ c :: s, isIdentifierPart d = true := by
  unfold isIdentifier at plain
  split at plain
  · cases plain
  next c s chars =>
    rw [Bool.and_eq_true, List.all_eq_true] at plain
    obtain ⟨start, rest⟩ := plain
    have first : isIdentifierPart c = true := by
      simp only [isIdentifierStart, isIdentifierPart, Char.isAlphanum, Bool.or_eq_true] at start ⊢
      tauto
    exact ⟨c, s, chars, start, List.forall_mem_cons.mpr ⟨first, rest⟩⟩

theorem propertyKey_oneLine (name : String) : OneLine (propertyKey name) := by
  unfold propertyKey
  split
  next plain =>
    obtain ⟨c, s, chars, _, parts⟩ := identifier_chars plain
    intro broken
    rw [chars] at broken
    exact absurd (parts '\n' broken) (by decide)
  · exact quote_oneLine name

theorem propertyKey_start (name : String) :
    ∃ c s, (propertyKey name).toList = c :: s ∧ (isIdentifierStart c = true ∨ c = '"') := by
  unfold propertyKey
  split
  next plain =>
    obtain ⟨c, s, chars, start, _⟩ := identifier_chars plain
    exact ⟨c, s, chars, .inl start⟩
  · refine ⟨'"', name.toList.flatMap quotedChar ++ ['"'], ?_, .inr rfl⟩
    rw [quote, String.toList_ofList, List.cons_append]

namespace TypeExpr

variable {valid : String → Prop}

mutual

/-- Every name in a type is valid, that of a generic type included. -/
def Named (valid : String → Prop) : TypeExpr → Prop
  | .reference name => valid name
  | .keyword _ => True
  | .literal _ => True
  | .array item => item.Named valid
  | .union ts => NamedEach valid ts
  | .object fields => NamedFields valid fields
  | .record key value => key.Named valid ∧ value.Named valid
  | .intersection ts => NamedEach valid ts
  | .generic name ts => valid name ∧ NamedEach valid ts
  | .indexed owner _ => owner.Named valid

def NamedEach (valid : String → Prop) : List TypeExpr → Prop
  | [] => True
  | t :: ts => t.Named valid ∧ NamedEach valid ts

def NamedFields (valid : String → Prop) : List (String × TypeExpr) → Prop
  | [] => True
  | (_, t) :: fields => t.Named valid ∧ NamedFields valid fields

end

theorem namedEach_iff {ts : List TypeExpr} : NamedEach valid ts ↔ ∀ t ∈ ts, t.Named valid := by
  induction ts with
  | nil => simp [NamedEach]
  | cons t ts ih => rw [NamedEach, ih, List.forall_mem_cons]

theorem Named.without {t : TypeExpr} (named : t.Named valid) (keys : List String) (utility : valid "Omit") :
    (t.without keys).Named valid := by
  have literals : NamedEach valid (keys.map .literal) := by
    refine namedEach_iff.mpr fun key listed => ?_
    obtain ⟨s, _, rfl⟩ := List.mem_map.mp listed
    trivial
  exact ⟨utility, named, literals, trivial⟩

/-! ### Texts of types -/

theorem keyword_oneLine (k : Keyword) : OneLine k.text := by
  cases k <;> decide

mutual

/-- A type whose names hold no line break is written on one line. -/
theorem Named.render_oneLine (t : TypeExpr) (named : t.Named OneLine) : OneLine t.render := by
  cases t with
  | reference name => exact named
  | keyword k => exact keyword_oneLine k
  | literal s => exact quote_oneLine s
  | array item =>
    rw [render]
    have inner := Named.render_oneLine item named
    exact oneLine_append.mpr ⟨oneLine_append.mpr ⟨by decide, inner⟩, by decide⟩
  | union ts =>
    cases ts with
    | nil => decide
    | cons t ts => exact oneLine_intercalate (by decide) (renderEach_oneLine (t :: ts) named)
  | object fields =>
    rw [render]
    have inner := oneLine_intercalate (s := "; ") (by decide) (renderFields_oneLine fields named)
    exact oneLine_append.mpr ⟨oneLine_append.mpr ⟨by decide, inner⟩, by decide⟩
  | record key value =>
    rw [render]
    obtain ⟨first, second⟩ := named
    have key := Named.render_oneLine key first
    have value := Named.render_oneLine value second
    simp only [oneLine_append]
    exact ⟨⟨⟨⟨by decide, key⟩, by decide⟩, value⟩, by decide⟩
  | intersection ts => exact oneLine_intercalate (by decide) (renderOperands_oneLine ts named)
  | generic name ts =>
    rw [render]
    obtain ⟨own, named⟩ := named
    have inner := oneLine_intercalate (s := ", ") (by decide) (renderEach_oneLine ts named)
    simp only [oneLine_append]
    exact ⟨⟨⟨own, by decide⟩, inner⟩, by decide⟩
  | indexed owner key =>
    rw [render]
    have inner := Named.render_oneLine owner named
    simp only [oneLine_append]
    exact ⟨⟨⟨inner, by decide⟩, quote_oneLine key⟩, by decide⟩

theorem renderEach_oneLine (ts : List TypeExpr) (named : NamedEach OneLine ts) :
    ∀ text ∈ renderEach ts, OneLine text := by
  cases ts with
  | nil => exact fun _ absent => absurd absent List.not_mem_nil
  | cons t ts =>
    obtain ⟨first, rest⟩ := named
    exact List.forall_mem_cons.mpr ⟨Named.render_oneLine t first, renderEach_oneLine ts rest⟩

theorem renderFields_oneLine (fields : List (String × TypeExpr)) (named : NamedFields OneLine fields) :
    ∀ text ∈ renderFields fields, OneLine text := by
  cases fields with
  | nil => exact fun _ absent => absurd absent List.not_mem_nil
  | cons field fields =>
    obtain ⟨first, rest⟩ := named
    have value := Named.render_oneLine field.2 first
    refine List.forall_mem_cons.mpr ⟨?_, renderFields_oneLine fields rest⟩
    exact oneLine_append.mpr ⟨oneLine_append.mpr ⟨propertyKey_oneLine field.1, by decide⟩, value⟩

theorem renderOperands_oneLine (ts : List TypeExpr) (named : NamedEach OneLine ts) :
    ∀ text ∈ renderOperands ts, OneLine text := by
  cases ts with
  | nil => exact fun _ absent => absurd absent List.not_mem_nil
  | cons t ts =>
    obtain ⟨first, rest⟩ := named
    have operand := Named.render_oneLine t first
    refine List.forall_mem_cons.mpr ⟨?_, renderOperands_oneLine ts rest⟩
    split
    · exact oneLine_append.mpr ⟨oneLine_append.mpr ⟨by decide, operand⟩, by decide⟩
    · exact operand

end

end TypeExpr

/-! ### Types of members -/

variable {valid : String → Prop}

theorem ScalarName.named {typeName : String} {type : TypeExpr} (known : ScalarName typeName type) :
    type.Named valid := by
  obtain ⟨t, _, scalar⟩ := known
  cases t <;> cases scalar <;> simp [TypeExpr.varying, TypeExpr.string, TypeExpr.number, TypeExpr.boolean,
    TypeExpr.Named, TypeExpr.NamedEach]

theorem Typing.named {p : Property} {type : TypeExpr} (typing : Typing p type)
    (references : ∀ target, p.RefersTo target → valid target) : type.Named valid := by
  cases typing with
  | reference referring => exact references _ (.inl referring)
  | scalar _ _ known => exact known.named
  | references held referring => exact references _ (.inr ⟨_, held.items, referring⟩)
  | scalars _ _ _ known =>
    rw [TypeExpr.Named]
    exact known.named

theorem ValueType.expr_named {element : Option String} (v : ValueType)
    (inherited : ∀ name, element = some name → valid name) : (v.expr element).Named valid := by
  cases v with
  | inherited =>
    cases element with
    | none => trivial
    | some name => exact inherited name rfl
  | _ => trivial

namespace Narrowing

variable {n : Narrowing}

theorem member_named (inherited : ∀ name, n.element = some name → valid name) (utility : valid "Omit")
    (pair : String × ValueType) : (n.member pair).Named valid := by
  have own : (TypeExpr.object [(keyField, .literal pair.1), (valueField, pair.2.expr n.element)]).Named valid :=
    ⟨trivial, pair.2.expr_named inherited, trivial⟩
  unfold member
  split
  · exact own
  next name present =>
    have element : (TypeExpr.reference name).Named valid := inherited name present
    have kept := element.without [keyField, valueField] utility
    exact ⟨kept, own, trivial⟩

theorem fieldType_named (inherited : ∀ name, n.element = some name → valid name) (utility : valid "Omit")
    (entity : String) : (n.fieldType entity).Named valid := by
  rw [fieldType, TypeExpr.Named, TypeExpr.Named, TypeExpr.namedEach_iff]
  intro t listed
  obtain ⟨pair, _, rfl⟩ := List.mem_map.mp listed
  exact member_named inherited utility pair

end Narrowing

end TypeScript

end EntityTypings
