import EntityTypings.Proofs.TypeScript.Typing
import EntityTypings.TypeScript.Narrowing

/-!
# References in types

The names that a type refers to, and where they come from: the type of a property has its reference or that
of its items, `mapProperty_references`, and the type of narrowed attributes has the inherited element,
`Narrowing.fieldType_references`.
-/

namespace EntityTypings.TypeScript

namespace TypeExpr

mutual

/-- The declared names that a type refers to. -/
def references : TypeExpr → List String
  | .reference name => [name]
  | .keyword _ => []
  | .literal _ => []
  | .array item => item.references
  | .union ts => referencesEach ts
  | .object fields => referencesFields fields
  | .record key value => key.references ++ value.references
  | .intersection ts => referencesEach ts
  | .generic _ ts => referencesEach ts
  | .indexed owner _ => owner.references

def referencesEach : List TypeExpr → List String
  | [] => []
  | t :: ts => t.references ++ referencesEach ts

def referencesFields : List (String × TypeExpr) → List String
  | [] => []
  | (_, t) :: fields => t.references ++ referencesFields fields

end

theorem referencesEach_eq_flatMap (ts : List TypeExpr) : referencesEach ts = ts.flatMap references := by
  induction ts with
  | nil => rfl
  | cons t ts ih => rw [referencesEach, List.flatMap_cons, ih]

theorem references_without (t : TypeExpr) (keys : List String) :
    (t.without keys).references = t.references := by
  have literals : (keys.map TypeExpr.literal).flatMap references = [] := by
    simp [List.flatMap_map, references]
  simp only [without, references, referencesEach, referencesEach_eq_flatMap, literals, List.append_nil]

end TypeExpr

/-! ### Narrowed attributes -/

variable {name : String}

theorem ValueType.expr_references {element : Option String} {v : ValueType}
    (mentioned : name ∈ (v.expr element).references) : element = some name := by
  cases v with
  | inherited =>
    cases element with
    | none => cases mentioned
    | some owner => rw [List.mem_singleton.mp mentioned]
  | _ => cases mentioned

theorem Narrowing.member_references {n : Narrowing} {pair : String × ValueType}
    (mentioned : name ∈ (n.member pair).references) : n.element = some name := by
  unfold member at mentioned
  split at mentioned
  next absent =>
    have own : name ∈ (pair.2.expr n.element).references := by
      simpa [TypeExpr.references, TypeExpr.referencesFields] using mentioned
    exact ValueType.expr_references own
  next owner present =>
    have either : name = owner ∨ name ∈ (pair.2.expr n.element).references := by
      simpa [TypeExpr.references, TypeExpr.referencesEach, TypeExpr.referencesFields,
        TypeExpr.references_without] using mentioned
    rcases either with rfl | own
    · exact present
    · exact ValueType.expr_references own

theorem Narrowing.fieldType_references {n : Narrowing} {entity : String}
    (mentioned : name ∈ (n.fieldType entity).references) : n.element = some name := by
  rw [fieldType, TypeExpr.references, TypeExpr.references, TypeExpr.referencesEach_eq_flatMap,
    List.flatMap_map] at mentioned
  obtain ⟨pair, _, mentioned⟩ := List.mem_flatMap.mp mentioned
  exact member_references mentioned

/-! ### Properties -/

theorem ScalarName.references {typeName : String} {type : TypeExpr} (known : ScalarName typeName type) :
    type.references = [] := by
  obtain ⟨t, _, scalar⟩ := known
  cases t <;> cases scalar <;> rfl

/-- The type of a property refers to nothing but the property's reference or that of its items. -/
theorem mapProperty_references {site : PropertySite} {p : Property} {type : TypeExpr}
    (mapped : mapProperty site p = .ok (.typed type)) (mentioned : name ∈ type.references) :
    p.reference = some name ∨ ∃ items, p.items = some items ∧ items.reference = some name := by
  cases mapProperty_eq_typed.mp mapped with
  | reference referring =>
    obtain rfl := List.mem_singleton.mp mentioned
    exact .inl referring
  | scalar _ _ known =>
    rw [known.references] at mentioned
    cases mentioned
  | references held referring =>
    obtain rfl := List.mem_singleton.mp mentioned
    exact .inr ⟨_, held.items, referring⟩
  | scalars _ _ _ known =>
    rw [TypeExpr.references, known.references] at mentioned
    cases mentioned

end EntityTypings.TypeScript
