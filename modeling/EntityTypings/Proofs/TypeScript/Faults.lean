import EntityTypings.TypeScript.Mapping

/-!
# Faults of properties

`Fault` lists the ways in which a property stops a pass, without the order of the tests.
`mapProperty_eq_error` shows that mapping fails exactly for them, with the failure they name.
-/

namespace EntityTypings

/-- The property that a soft error is about. -/
def SoftError.site? : SoftError → Option PropertySite
  | .untypedProperty site => some site
  | .untypedItems site => some site
  | _ => none

/-- A list whose items are given by a type name alone. -/
structure Property.TypesItems (p : Property) (itemType : String) : Prop where
  unreferenced : p.reference = none
  list : ∃ typeName t, p.typeName = some typeName ∧ DeclaredType.ofName? typeName = some t ∧
    t.isArrayLike = true
  items : p.items = some ⟨none, some itemType⟩

namespace TypeScript

variable {site : PropertySite} {p : Property} {failure : MappingFailure}

inductive Fault (site : PropertySite) (p : Property) : MappingFailure → Prop where
  | unknownType {typeName : String} (unreferenced : p.reference = none)
      (declared : p.typeName = some typeName) (unknown : DeclaredType.ofName? typeName = none) :
      Fault site p (.unknownType typeName site)
  | missingItems {typeName : String} {t : DeclaredType} (unreferenced : p.reference = none)
      (declared : p.typeName = some typeName) (known : DeclaredType.ofName? typeName = some t)
      (list : t.isArrayLike = true) (absent : p.items = none) : Fault site p (.missingItems site)
  | unknownItemType {itemType : String} (typed : p.TypesItems itemType)
      (unknown : DeclaredType.ofName? itemType = none) : Fault site p (.unknownType itemType site)
  | nestedList {itemType : String} {t : DeclaredType} (typed : p.TypesItems itemType)
      (known : DeclaredType.ofName? itemType = some t) (list : t.isArrayLike = true) :
      Fault site p (.missingItems site)

/-! ### The steps of mapping -/

theorem scalarType?_eq_some {t : DeclaredType} (scalar : t.isArrayLike = false) :
    ∃ type, scalarType? t = some type := by
  cases mapped : scalarType? t with
  | some type => exact ⟨type, rfl⟩
  | none => rw [scalarType?_eq_none.mp mapped] at scalar; cases scalar

theorem mapItemType_eq_error {itemType : String} :
    mapItemType site itemType = .error failure ↔
      (DeclaredType.ofName? itemType = none ∧ failure = .unknownType itemType site) ∨
      (∃ t, DeclaredType.ofName? itemType = some t ∧ t.isArrayLike = true ∧
        failure = .missingItems site) := by
  unfold mapItemType
  cases known : DeclaredType.ofName? itemType with
  | none => simp [eq_comm (b := failure)]
  | some t =>
    cases list : t.isArrayLike with
    | true => simp [scalarType?_eq_none.mpr list, list, eq_comm (b := failure)]
    | false =>
      obtain ⟨type, mapped⟩ := scalarType?_eq_some list
      simp [mapped, list]

theorem mapItems_eq_error {items : Items} :
    mapItems site items = .error failure ↔
      ∃ itemType, items = ⟨none, some itemType⟩ ∧ mapItemType site itemType = .error failure := by
  obtain ⟨reference, typeName⟩ := items
  unfold mapItems
  cases reference with
  | some target => simp
  | none =>
    cases typeName with
    | none => simp
    | some itemType =>
      cases mapped : mapItemType site itemType <;> simp [Except.map, mapped]

theorem mapTypeName_eq_error {typeName : String} {items : Option Items} :
    mapTypeName site typeName items = .error failure ↔
      (DeclaredType.ofName? typeName = none ∧ failure = .unknownType typeName site) ∨
      (∃ t, DeclaredType.ofName? typeName = some t ∧ t.isArrayLike = true ∧
        ((items = none ∧ failure = .missingItems site) ∨
          ∃ held, items = some held ∧ mapItems site held = .error failure)) := by
  unfold mapTypeName
  cases known : DeclaredType.ofName? typeName with
  | none => simp [eq_comm (b := failure)]
  | some t =>
    cases list : t.isArrayLike with
    | true => cases items <;> simp [scalarType?_eq_none.mpr list, list, eq_comm (b := failure)]
    | false =>
      obtain ⟨type, mapped⟩ := scalarType?_eq_some list
      simp [mapped, list]

/-! ### Properties -/

theorem mapProperty_eq_error : mapProperty site p = .error failure ↔ Fault site p failure := by
  constructor
  · intro failed
    unfold mapProperty at failed
    split at failed
    · cases failed
    · cases failed
    next typeName unreferenced declared =>
      rcases mapTypeName_eq_error.mp failed with ⟨unknown, rfl⟩ | ⟨t, known, list, missing | held⟩
      · exact .unknownType unreferenced declared unknown
      · obtain ⟨absent, rfl⟩ := missing
        exact .missingItems unreferenced declared known list absent
      · obtain ⟨items, present, failed⟩ := held
        obtain ⟨itemType, rfl, untyped⟩ := mapItems_eq_error.mp failed
        have typed : p.TypesItems itemType := ⟨unreferenced, ⟨typeName, t, declared, known, list⟩, present⟩
        rcases mapItemType_eq_error.mp untyped with ⟨unknown, rfl⟩ | ⟨u, known, list, rfl⟩
        · exact .unknownItemType typed unknown
        · exact .nestedList typed known list
  · intro fault
    have items {itemType : String} (typed : p.TypesItems itemType)
        (failed : mapItemType site itemType = .error failure) : mapProperty site p = .error failure := by
      obtain ⟨unreferenced, ⟨typeName, t, declared, known, list⟩, present⟩ := typed
      have mapped := mapItems_eq_error.mpr ⟨itemType, rfl, failed⟩
      simp only [mapProperty, unreferenced, declared]
      exact mapTypeName_eq_error.mpr (.inr ⟨t, known, list, .inr ⟨_, present, mapped⟩⟩)
    cases fault with
    | unknownType unreferenced declared unknown =>
      simp only [mapProperty, unreferenced, declared]
      exact mapTypeName_eq_error.mpr (.inl ⟨unknown, rfl⟩)
    | missingItems unreferenced declared known list absent =>
      simp only [mapProperty, unreferenced, declared]
      exact mapTypeName_eq_error.mpr (.inr ⟨_, known, list, .inl ⟨absent, rfl⟩⟩)
    | unknownItemType typed unknown => exact items typed (mapItemType_eq_error.mpr (.inl ⟨unknown, rfl⟩))
    | nestedList typed known list =>
      exact items typed (mapItemType_eq_error.mpr (.inr ⟨_, known, list, rfl⟩))

theorem mapItems_skipped_site {items : Items} {e : SoftError}
    (skipped : mapItems site items = .ok (.skipped e)) : e.site? = some site := by
  unfold mapItems at skipped
  split at skipped
  · cases skipped
  · cases skipped; rfl
  next typeName _ _ =>
    cases mapped : mapItemType site typeName <;> simp [Except.map, mapped] at skipped

/-- A property that is left out is reported under its own name. -/
theorem mapProperty_skipped_site {e : SoftError} (skipped : mapProperty site p = .ok (.skipped e)) :
    e.site? = some site := by
  unfold mapProperty at skipped
  split at skipped
  · cases skipped
  · cases skipped; rfl
  · unfold mapTypeName at skipped
    split at skipped
    · cases skipped
    · split at skipped
      · cases skipped
      · cases skipped
      · exact mapItems_skipped_site skipped

end TypeScript

end EntityTypings
