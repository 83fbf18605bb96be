import EntityTypings.Proofs.TypeScript.Comments
import EntityTypings.Proofs.TypeScript.Literals

/-!
# Lines of members

The line that declares a member is a row of parts without a fixed place: a mark for members that cannot be set, a key
that may be quoted, a mark for members that may be left out, a type. `Member.line_readable` shows that the line tells
them apart, whatever the name holds, since no key is mistaken for the mark in front of one: `Member.mark_ne_key`.
-/

namespace EntityTypings.TypeScript

open Text (OneLine oneLine_append)

namespace Member

variable {m m' : Member}

/-- What stands behind the key of a member. -/
def afterKey (m : Member) : String := (if m.required then "" else "?") ++ (": " ++ (m.type.render ++ ";\n"))

/-- What stands behind the indentation of a member. -/
def signature (m : Member) : String := (if m.readOnly then "readonly " else "") ++ (propertyKey m.name ++ m.afterKey)

theorem line_eq (m : Member) : m.line = "  " ++ m.signature := by
  simp only [line, signature, afterKey, String.append_assoc]

theorem afterKey_start (m : Member) : ∃ c rest, m.afterKey.toList = c :: rest ∧ (c = '?' ∨ c = ':') := by
  unfold afterKey
  rw [String.toList_append, String.toList_append]
  split
  · exact ⟨':', _, rfl, .inr rfl⟩
  · exact ⟨'?', _, rfl, .inl rfl⟩

theorem afterKey_endsKey (m : Member) : EndsKey m.afterKey.toList := by
  obtain ⟨c, rest, chars, mark⟩ := m.afterKey_start
  rw [chars]
  rintro _ ⟨⟩
  rcases mark with rfl | rfl <;> decide

theorem afterKey_inj (same : m.afterKey = m'.afterKey) :
    m.required = m'.required ∧ m.type.render = m'.type.render := by
  have marked (s t : String) : ": " ++ s ≠ "?" ++ t := by
    intro same
    rw [← String.toList_inj, String.toList_append, String.toList_append] at same
    exact absurd (List.cons.inj same).1 (by decide)
  unfold afterKey at same
  cases needed : m.required <;> cases needed' : m'.required <;> simp only [needed, needed'] at same
  · exact ⟨rfl, by simpa using same⟩
  · exact absurd same.symm (marked _ _)
  · exact absurd same (marked _ _)
  · exact ⟨rfl, by simpa using same⟩

/-- No key is mistaken for the mark of a member that cannot be set: a member with the name of the mark is followed by
no blank. -/
theorem mark_ne_key (s : String) (name : String) (m : Member) :
    "readonly " ++ s ≠ propertyKey name ++ m.afterKey := by
  intro same
  have mark : "readonly " = propertyKey "readonly" ++ " " := by decide
  have blank : EndsKey (" " ++ s).toList := by
    rw [String.toList_append]
    rintro _ ⟨⟩
    decide
  rw [mark, String.append_assoc, ← String.toList_inj, String.toList_append,
    String.toList_append (s := propertyKey name)] at same
  obtain ⟨_, rest⟩ := propertyKey_append_inj blank m.afterKey_endsKey same
  obtain ⟨c, later, chars, other⟩ := m.afterKey_start
  rw [chars, String.toList_append] at rest
  obtain rfl : ' ' = c := (List.cons.inj rest).1
  exact absurd other (by decide)

theorem signature_inj (same : m.signature = m'.signature) :
    m.name = m'.name ∧ m.required = m'.required ∧ m.readOnly = m'.readOnly ∧ m.type.render = m'.type.render := by
  have keyed (same : propertyKey m.name ++ m.afterKey = propertyKey m'.name ++ m'.afterKey) :
      m.name = m'.name ∧ m.required = m'.required ∧ m.type.render = m'.type.render := by
    rw [← String.toList_inj, String.toList_append, String.toList_append] at same
    obtain ⟨names, rest⟩ := propertyKey_append_inj m.afterKey_endsKey m'.afterKey_endsKey same
    exact ⟨names, afterKey_inj (String.toList_inj.mp rest)⟩
  unfold signature at same
  cases fixed : m.readOnly <;> cases fixed' : m'.readOnly <;>
    simp only [fixed, fixed', Bool.false_eq_true, if_true, if_false, String.empty_append] at same
  · obtain ⟨names, needed, types⟩ := keyed same
    exact ⟨names, needed, rfl, types⟩
  · exact absurd same.symm (mark_ne_key _ _ _)
  · exact absurd same (mark_ne_key _ _ _)
  · obtain ⟨names, needed, types⟩ := keyed ((String.append_right_inj _).mp same)
    exact ⟨names, needed, rfl, types⟩

/-- The line that declares a member tells its name, both flags and the text of its type, since different names have
different keys and a quoted text ends where it does whatever follows. If its type is written on one line, then the only
line break is at its end. -/
theorem line_readable :
    (∀ m m' : Member, m.line = m'.line ↔ m.name = m'.name ∧ m.required = m'.required ∧ m.readOnly = m'.readOnly ∧
      m.type.render = m'.type.render) ∧
    (∀ a b : String, propertyKey a = propertyKey b → a = b) ∧
    (∀ a b u v : String, quote a ++ u = quote b ++ v → a = b ∧ u = v) ∧
    ∀ m : Member, OneLine m.type.render → ∃ s, m.line = s ++ "\n" ∧ OneLine s := by
  refine ⟨fun m m' => ⟨fun same => ?_, ?_⟩, fun _ _ => propertyKey_injective, fun a b u v same => ?_,
    fun m => line_unbroken⟩
  · rw [line_eq, line_eq] at same
    exact signature_inj ((String.append_right_inj _).mp same)
  · rintro ⟨names, needed, fixed, types⟩
    unfold line
    rw [names, needed, fixed, types]
  · rw [← String.toList_inj, String.toList_append, String.toList_append] at same
    obtain ⟨texts, rest⟩ := quote_append_inj same
    exact ⟨texts, String.toList_inj.mp rest⟩

/-- A name with the mark, the signs and a line break in it, and two members that only a blank tells apart. -/
theorem marked_lines_readable :
    (⟨"readonly a?: \"\n", .string, false, true, none⟩ : Member).line =
      "  readonly \"readonly a?: \\\"\\n\"?: string;\n" ∧
    (∃ s, (⟨"readonly a?: \"\n", .string, false, true, none⟩ : Member).line = s ++ "\n" ∧ OneLine s) ∧
    (⟨"readonly", .string, true, false, none⟩ : Member).line ≠ (⟨"", .string, true, true, none⟩ : Member).line := by
  obtain ⟨told, _, _, broken⟩ := line_readable
  exact ⟨by decide, broken _ (by decide), fun same => absurd ((told _ _).mp same).1 (by decide)⟩

end Member

end EntityTypings.TypeScript
