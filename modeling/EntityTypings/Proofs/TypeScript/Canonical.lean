import EntityTypings.Proofs.Text.Bytes
import EntityTypings.Proofs.TypeScript.Narrowing
import EntityTypings.Proofs.TypeScript.Tokens

/-!
# Narrowed attributes as a canonical text

The text of narrowed attributes tells which pairs of a key and a value type an entity has, and nothing else:
`Narrowing.fieldType_canonical`. Texts are compared member by member, since neither a key nor a value type can be
mistaken for a longer one: `Narrowing.member_cancel`.
-/

namespace EntityTypings.TypeScript

open Text (bytes bytes_lt_iff)

/-! ### Texts of members -/

theorem ValueType.render_expr_unspaced {element : Option String} (v : ValueType)
    (identifier : ∀ name, element = some name → IsName name) : ' ' ∉ (v.expr element).render.toList := by
  cases v with
  | inherited =>
    cases element with
    | none => decide
    | some name =>
      have text : (ValueType.inherited.expr (some name)).render = name ++ "[\"value\"]" := by
        rw [expr, TypeExpr.render, TypeExpr.render, String.append_assoc, String.append_assoc]
        rfl
      have blank : ' ' ∉ name.toList := fun inside => absurd ((identifier name rfl).continues ' ' inside) (by decide)
      rw [text, String.toList_append, List.mem_append, not_or]
      exact ⟨blank, by decide⟩
  | _ => simp only [expr]; decide

namespace Narrowing

variable {n n' : Narrowing} {a b : String × ValueType} {u v : List Char}

/-- What is written in front of a member's key. -/
def opening (element : Option String) : String :=
  match element with
  | none => "\x7b key: "
  | some name => ((TypeExpr.reference name).without [keyField, valueField]).render ++ " & \x7b key: "

theorem member_render (n : Narrowing) (pair : String × ValueType) :
    (n.member pair).render =
      opening n.element ++ (quote pair.1 ++ ("; value: " ++ ((pair.2.expr n.element).render ++ " \x7d"))) := by
  obtain ⟨attributes, element⟩ := n
  generalize texts : quote pair.1 ++ ("; value: " ++ ((pair.2.expr element).render ++ " \x7d")) = later
  have own : (TypeExpr.object [(keyField, .literal pair.1), (valueField, pair.2.expr element)]).render =
      "\x7b key: " ++ later := by
    have plain : propertyKey keyField = "key" ∧ propertyKey valueField = "value" := by decide
    simp only [TypeExpr.render, TypeExpr.renderFields, String.intercalate_cons_cons, String.intercalate_singleton,
      plain, String.append_assoc, ← texts]
    apply String.toList_inj.mp
    simp only [String.toList_append]
    rfl
  cases element with
  | none => exact own
  | some name =>
    have apart : (TypeExpr.intersection [(TypeExpr.reference name).without [keyField, valueField],
        .object [(keyField, .literal pair.1), (valueField, pair.2.expr (some name))]]).render =
        ((TypeExpr.reference name).without [keyField, valueField]).render ++ " & " ++ ("\x7b key: " ++ later) := by
      rw [← own, TypeExpr.render]
      rfl
    rw [member, apart, opening, String.append_assoc, String.append_assoc]
    rfl

/-- Equal texts agree in front of a character that is in neither front, and behind it. -/
theorem cancel_until {c : Char} {s t : List Char} (absent : c ∉ s) (absent' : c ∉ t)
    (same : s ++ c :: u = t ++ c :: v) : s = t ∧ u = v := by
  have within {w : List Char} (absent : c ∉ w) : ∀ d ∈ w, (d != c) = true := by
    intro d inside
    rw [bne_iff_ne]
    rintro rfl
    exact absent inside
  have stops {rest : List Char} : ∀ d ∈ (c :: rest).head?, (d != c) = false := by
    rintro _ ⟨⟩
    exact bne_self_eq_false c
  obtain ⟨fronts, rest⟩ := cancel_class (within absent) (within absent') stops stops same
  exact ⟨fronts, (List.cons.inj rest).2⟩

/-- Of two texts that start with members the members and what follows them agree. -/
theorem member_cancel (identifier : ∀ name, n.element = some name → IsName name)
    (same : (n.member a).render.toList ++ u = (n.member b).render.toList ++ v) : a = b ∧ u = v := by
  have closing : " \x7d".toList = [' ', '\x7d'] := rfl
  simp only [member_render, String.toList_append, List.append_assoc] at same
  obtain ⟨key, behind⟩ := quote_append_inj (List.append_cancel_left same)
  have values := List.append_cancel_left behind
  simp only [closing, List.cons_append] at values
  obtain ⟨value, rest⟩ :=
    cancel_until (a.2.render_expr_unspaced identifier) (b.2.render_expr_unspaced identifier) values
  exact ⟨Prod.ext key (ValueType.render_expr_injective (String.toList_inj.mp value)), (List.cons.inj rest).2⟩

/-! ### Texts of lists -/

/-- No member starts as `never` does. -/
theorem member_start (n : Narrowing) (pair : String × ValueType) :
    ∃ c s, (n.member pair).render.toList = c :: s ∧ c ≠ 'n' := by
  have start : ∃ c s, (opening n.element).toList = c :: s ∧ c ≠ 'n' := by
    cases n.element with
    | none => exact ⟨'\x7b', _, rfl, by decide⟩
    | some name =>
      rw [opening, TypeExpr.without, TypeExpr.render]
      simp only [String.toList_append, List.append_assoc]
      exact ⟨'O', _, rfl, by decide⟩
  obtain ⟨c, s, first, other⟩ := start
  exact ⟨c, _, by rw [member_render, String.toList_append, first, List.cons_append], other⟩

/-- What follows a member in a list. -/
def behind (n : Narrowing) : List (String × ValueType) → String
  | [] => ">"
  | pair :: pairs => " | " ++ ((TypeExpr.union ((pair :: pairs).map n.member)).render ++ ">")

theorem union_behind (n : Narrowing) (pair : String × ValueType) (pairs : List (String × ValueType)) :
    (TypeExpr.union ((pair :: pairs).map n.member)).render ++ ">" = (n.member pair).render ++ n.behind pairs := by
  cases pairs with
  | nil => rw [List.map_singleton, TypeExpr.render, TypeExpr.renderEach, TypeExpr.renderEach,
      String.intercalate_singleton, behind]
  | cons next pairs =>
    simp only [behind, List.map_cons, TypeExpr.render, TypeExpr.renderEach, String.intercalate_cons_cons,
      String.append_assoc]

theorem closed_ne_separated (t : String) : ">" ≠ " | " ++ t := by
  intro same
  rw [← String.toList_inj, String.toList_append] at same
  exact absurd (List.cons.inj same).1 (by decide)

theorem never_ne_members (n : Narrowing) (pair : String × ValueType) (pairs : List (String × ValueType)) :
    "never>" ≠ (TypeExpr.union ((pair :: pairs).map n.member)).render ++ ">" := by
  intro same
  obtain ⟨c, s, start, other⟩ := n.member_start pair
  rw [union_behind, ← String.toList_inj, String.toList_append, start] at same
  exact other (List.cons.inj same).1.symm

theorem members_cancel (identifier : ∀ name, n.element = some name → IsName name)
    {pairs pairs' : List (String × ValueType)}
    (same : (TypeExpr.union (pairs.map n.member)).render ++ ">" =
      (TypeExpr.union (pairs'.map n.member)).render ++ ">") : pairs = pairs' := by
  induction pairs generalizing pairs' with
  | nil =>
    cases pairs' with
    | nil => rfl
    | cons pair' pairs' => exact absurd same (n.never_ne_members pair' pairs')
  | cons pair pairs ih =>
    cases pairs' with
    | nil => exact absurd same.symm (n.never_ne_members pair pairs)
    | cons pair' pairs' =>
      rw [union_behind, union_behind, ← String.toList_inj, String.toList_append, String.toList_append] at same
      obtain ⟨rfl, later⟩ := member_cancel identifier same
      congr 1
      have later := String.toList_inj.mp later
      cases pairs with
      | nil =>
        cases pairs' with
        | nil => rfl
        | cons next' pairs' => exact absurd later (closed_ne_separated _)
      | cons next pairs =>
        cases pairs' with
        | nil => exact absurd later.symm (closed_ne_separated _)
        | cons next' pairs' => exact ih ((String.append_right_inj " | ").mp later)

/-! ### Texts of fields -/

theorem fieldType_render (n : Narrowing) (entity : String) :
    (n.fieldType entity).render = "Array<" ++ ((TypeExpr.union ((n.pairs entity).map n.member)).render ++ ">") := by
  rw [fieldType, TypeExpr.render, String.append_assoc]

theorem fieldType_render_inj {entity entity' : String} (common : n.element = n'.element)
    (identifier : ∀ name, n.element = some name → IsName name) :
    (n.fieldType entity).render = (n'.fieldType entity').render ↔ n.pairs entity = n'.pairs entity' := by
  refine ⟨fun same => ?_, fun same => congrArg TypeExpr.render (fieldType_congr common same)⟩
  rw [fieldType_render, fieldType_render, ← member_congr common] at same
  exact members_cancel identifier ((String.append_right_inj _).mp same)

theorem fieldType_render_never {entity : String} :
    (n.fieldType entity).render = "Array<never>" ↔ ∀ a ∈ n.attributes, a.appliesTo entity = false := by
  have empty : (n.fieldType entity).render = "Array<never>" ↔ n.pairs entity = [] := by
    have text : "Array<never>" = "Array<" ++ "never>" := rfl
    rw [fieldType_render, text, String.append_right_inj]
    refine ⟨fun same => ?_, fun none => by rw [none]; rfl⟩
    cases listed : n.pairs entity with
    | nil => rfl
    | cons pair pairs => exact absurd (listed ▸ same).symm (n.never_ne_members pair pairs)
  rw [empty, List.eq_nil_iff_forall_not_mem]
  simp only [mem_pairs]
  refine ⟨fun absent a listed => ?_, fun unscoped pair offered => ?_⟩
  · exact Bool.eq_false_iff.mpr fun applies => absent a.pair ⟨a, listed, applies, rfl⟩
  · obtain ⟨a, listed, applies, -⟩ := offered
    rw [unscoped a listed] at applies
    cases applies

/-- Two texts of narrowed attributes over one element are equal exactly if the entities have the same keys with the
same value types. A text lists them as sorting and dropping repeats leaves them: each once, in ascending order of the
bytes of keys and written value types. It is `Array<never>` exactly if no attribute applies. -/
theorem fieldType_canonical (common : n.element = n'.element)
    (identifier : ∀ name, n.element = some name → IsName name) (entity entity' : String) :
    ((n.fieldType entity).render = (n'.fieldType entity').render ↔
      ∀ pair, Attribute.Offers n.attributes entity pair ↔ Attribute.Offers n'.attributes entity' pair) ∧
    (n.fieldType entity = .array (.union ((n.sortedPairs entity).map n.member)) ∧
      (∀ pair, pair ∈ n.sortedPairs entity ↔ Attribute.Offers n.attributes entity pair) ∧
      (n.sortedPairs entity).Pairwise fun a b => bytes a.1 < bytes b.1 ∨
        a.1 = b.1 ∧ bytes (a.2.expr n.element).render < bytes (b.2.expr n.element).render) ∧
    ((n.fieldType entity).render = "Array<never>" ↔ ∀ a ∈ n.attributes, a.appliesTo entity = false) := by
  refine ⟨?_, ⟨?_, fun _ => mem_sortedPairs, ?_⟩, fieldType_render_never⟩
  · rw [fieldType_render_inj common identifier]
    refine ⟨fun same pair => ?_, pairs_ext common⟩
    rw [← mem_pairs, ← mem_pairs, same]
  · rw [fieldType, pairs_eq_sorted]
  · simp only [bytes_lt_iff, ← precedes_iff]
    exact sortedPairs_ordered n entity

/-- A date is a text, and an attribute may be listed twice, once for everything and once for an entity. -/
theorem dated_fieldType_shared :
    ((⟨[.forEntity "fps" "Shot" "number", .everywhere "note" "text", .everywhere "fps" "number"], some "Value"⟩ :
        Narrowing).fieldType "Shot").render =
      ((⟨[.everywhere "note" "date", .forEntity "fps" "Task" "number"], some "Value"⟩ : Narrowing).fieldType
        "Task").render := by
  have identifier (name : String) (element : some "Value" = some name) : IsName name := by
    cases element
    exact isName_of_identifier (by decide)
  refine (fieldType_canonical rfl identifier "Shot" "Task").1.mpr fun pair => ?_
  simp [Attribute.Offers, Attribute.everywhere, Attribute.forEntity, Attribute.appliesTo, Attribute.pair,
    Attribute.kind, Attribute.Kind.ofName, ValueType.ofKind]
  tauto

end Narrowing

end EntityTypings.TypeScript
