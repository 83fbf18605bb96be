import EntityTypings.TypeScript.Mapping

/-!
# Types of typed properties

`Typing` lists the types that a property can be declared with, without the order of the tests.
`mapProperty_eq_typed` shows that mapping gives exactly these.
-/

namespace EntityTypings

/-- A list without a reference of its own, with these items. -/
structure Property.Holds (p : Property) (items : Items) : Prop where
  unreferenced : p.reference = none
  list : ∃ typeName t, p.typeName = some typeName ∧ DeclaredType.ofName? typeName = some t ∧
    t.isArrayLike = true
  items : p.items = some items

namespace TypeScript

/-- The type of a declared name that means no list. -/
def ScalarName (typeName : String) (type : TypeExpr) : Prop :=
  ∃ t, DeclaredType.ofName? typeName = some t ∧ scalarType? t = some type

inductive Typing (p : Property) : TypeExpr → Prop where
  | reference {target : String} (referring : p.reference = some target) : Typing p (.reference target)
  | scalar {typeName : String} {type : TypeExpr} (unreferenced : p.reference = none)
      (declared : p.typeName = some typeName) (known : ScalarName typeName type) : Typing p type
  | references {items : Items} {target : String} (held : p.Holds items)
      (referring : items.reference = some target) : Typing p (.array (.reference target))
  | scalars {items : Items} {itemType : String} {type : TypeExpr} (held : p.Holds items)
      (unreferenced : items.reference = none) (declared : items.typeName = some itemType)
      (known : ScalarName itemType type) : Typing p (.array type)

variable {site : PropertySite} {type : TypeExpr}

/-! ### The steps of mapping -/

theorem mapItemType_eq_ok {itemType : String} :
    mapItemType site itemType = .ok type ↔ ScalarName itemType type := by
  unfold mapItemType ScalarName
  cases DeclaredType.ofName? itemType with
  | none => simp
  | some t => cases scalar : scalarType? t <;> simp [scalar]

theorem mapItems_eq_typed {items : Items} :
    mapItems site items = .ok (.typed type) ↔
      (∃ target, items.reference = some target ∧ type = .array (.reference target)) ∨
      (∃ itemType item, items.reference = none ∧ items.typeName = some itemType ∧ ScalarName itemType item ∧
        type = .array item) := by
  obtain ⟨reference, typeName⟩ := items
  unfold mapItems
  cases reference with
  | some target => simp [eq_comm]
  | none =>
    cases typeName with
    | none => simp
    | some itemType =>
      have known (item : TypeExpr) : ScalarName itemType item ↔ mapItemType site itemType = .ok item :=
        mapItemType_eq_ok.symm
      simp only [reduceCtorEq, false_and, exists_const, false_or, true_and, Option.some.injEq,
        exists_and_left, exists_eq_left', known]
      cases mapItemType site itemType <;> simp [Except.map, eq_comm]

theorem mapTypeName_eq_typed {typeName : String} {items : Option Items} :
    mapTypeName site typeName items = .ok (.typed type) ↔
      ScalarName typeName type ∨
      (∃ t held, DeclaredType.ofName? typeName = some t ∧ t.isArrayLike = true ∧ items = some held ∧
        mapItems site held = .ok (.typed type)) := by
  unfold mapTypeName ScalarName
  cases DeclaredType.ofName? typeName with
  | none => simp
  | some t =>
    cases scalar : scalarType? t with
    | some mapped =>
      have plain : t.isArrayLike ≠ true := by
        intro list
        rw [scalarType?_eq_none.mpr list] at scalar
        cases scalar
      simp [scalar, plain]
    | none =>
      have list : t.isArrayLike = true := scalarType?_eq_none.mp scalar
      cases items <;> simp [scalar, list]

/-! ### Properties -/

theorem mapProperty_eq_typed {p : Property} : mapProperty site p = .ok (.typed type) ↔ Typing p type := by
  constructor
  · intro mapped
    unfold mapProperty at mapped
    split at mapped
    next target referring =>
      cases mapped
      exact .reference referring
    · cases mapped
    next typeName unreferenced declared =>
      rcases mapTypeName_eq_typed.mp mapped with known | ⟨t, items, named, list, present, mapped⟩
      · exact .scalar unreferenced declared known
      · have held : p.Holds items := ⟨unreferenced, ⟨typeName, t, declared, named, list⟩, present⟩
        rcases mapItems_eq_typed.mp mapped with ⟨target, referring, rfl⟩ | ⟨itemType, item, other, named, known, rfl⟩
        · exact .references held referring
        · exact .scalars held other named known
  · intro typing
    have list {items : Items} (held : p.Holds items) (mapped : mapItems site items = .ok (.typed type)) :
        mapProperty site p = .ok (.typed type) := by
      obtain ⟨unreferenced, ⟨typeName, t, declared, named, list⟩, present⟩ := held
      simp only [mapProperty, unreferenced, declared]
      exact mapTypeName_eq_typed.mpr (.inr ⟨t, items, named, list, present, mapped⟩)
    cases typing with
    | reference referring => simp only [mapProperty, referring]
    | scalar unreferenced declared known =>
      simp only [mapProperty, unreferenced, declared]
      exact mapTypeName_eq_typed.mpr (.inl known)
    | references held referring => exact list held (mapItems_eq_typed.mpr (.inl ⟨_, referring, rfl⟩))
    | scalars held unreferenced declared known =>
      exact list held (mapItems_eq_typed.mpr (.inr ⟨_, _, unreferenced, declared, known, rfl⟩))

end TypeScript

end EntityTypings
