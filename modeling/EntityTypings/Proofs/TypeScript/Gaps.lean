import EntityTypings.Proofs.TypeScript.Faults
import EntityTypings.Proofs.TypeScript.Typing

/-!
# Gaps of properties

`Gap` lists the ways in which a property cannot be typed and is left out, without the order of the tests.
`mapProperty_eq_skipped` shows that mapping leaves out exactly these, with the soft error they name.
-/

namespace EntityTypings.TypeScript

inductive Gap (site : PropertySite) (p : Property) : SoftError → Prop where
  | property (unreferenced : p.reference = none) (untyped : p.typeName = none) : Gap site p (.untypedProperty site)
  | items (held : p.Holds ⟨none, none⟩) : Gap site p (.untypedItems site)

variable {site : PropertySite} {p : Property} {e : SoftError}

theorem mapItems_eq_skipped {items : Items} :
    mapItems site items = .ok (.skipped e) ↔ items = ⟨none, none⟩ ∧ e = .untypedItems site := by
  obtain ⟨reference, typeName⟩ := items
  unfold mapItems
  cases reference with
  | some target => simp
  | none =>
    cases typeName with
    | none => simp [eq_comm (b := e)]
    | some itemType => cases mapped : mapItemType site itemType <;> simp [Except.map, mapped]

theorem mapTypeName_eq_skipped {typeName : String} {items : Option Items} :
    mapTypeName site typeName items = .ok (.skipped e) ↔
      ∃ t, DeclaredType.ofName? typeName = some t ∧ t.isArrayLike = true ∧ items = some ⟨none, none⟩ ∧
        e = .untypedItems site := by
  unfold mapTypeName
  cases DeclaredType.ofName? typeName with
  | none => simp
  | some t =>
    cases list : t.isArrayLike with
    | false =>
      obtain ⟨type, scalar⟩ := scalarType?_eq_some list
      simp [scalar, list]
    | true => cases items <;> simp [scalarType?_eq_none.mpr list, list, mapItems_eq_skipped]

theorem mapProperty_eq_skipped : mapProperty site p = .ok (.skipped e) ↔ Gap site p e := by
  constructor
  · intro mapped
    unfold mapProperty at mapped
    split at mapped
    · cases mapped
    next unreferenced untyped =>
      cases mapped
      exact .property unreferenced untyped
    next typeName unreferenced declared =>
      obtain ⟨t, known, list, held, rfl⟩ := mapTypeName_eq_skipped.mp mapped
      exact .items ⟨unreferenced, ⟨typeName, t, declared, known, list⟩, held⟩
  · intro gap
    cases gap with
    | property unreferenced untyped => simp only [mapProperty, unreferenced, untyped]
    | items held =>
      obtain ⟨unreferenced, ⟨typeName, t, declared, known, list⟩, present⟩ := held
      simp only [mapProperty, unreferenced, declared]
      exact mapTypeName_eq_skipped.mpr ⟨t, known, list, present, rfl⟩

end EntityTypings.TypeScript
