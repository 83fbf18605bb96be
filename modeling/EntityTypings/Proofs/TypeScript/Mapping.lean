import EntityTypings.Proofs.TypeScript.Gaps

/-!
# What declared types mean

`Meaning` gives the outcome for a property rule by rule, over tables of type names. Items that declare a type mean
what a property with only that type means, in a list. `mapProperty_meaning` shows that mapping follows these rules,
and that it never gets from items to items again.
-/

namespace EntityTypings.TypeScript

/-! ### Type names -/

/-- The names of types that are not lists. -/
def scalarNames : List (String × TypeExpr) :=
  [("object", .keyword .object), ("string", .string), ("number", .number), ("boolean", .boolean),
    ("integer", .number), ("variable", .varying)]

def listNames : List String := ["array", "mapped_array"]

theorem scalarName_iff {name : String} {type : TypeExpr} :
    ScalarName name type ↔ (name, type) ∈ scalarNames := by
  unfold ScalarName
  constructor
  · rintro ⟨t, known, scalar⟩
    obtain rfl := DeclaredType.ofName?_eq_some.mp known
    cases t <;> cases scalar <;> simp [scalarNames, DeclaredType.name]
  · intro listed
    simp only [scalarNames, List.mem_cons, List.not_mem_nil, or_false, Prod.mk.injEq] at listed
    rcases listed with ⟨rfl, rfl⟩ | ⟨rfl, rfl⟩ | ⟨rfl, rfl⟩ | ⟨rfl, rfl⟩ | ⟨rfl, rfl⟩ | ⟨rfl, rfl⟩
    · exact ⟨.object, rfl, rfl⟩
    · exact ⟨.string, rfl, rfl⟩
    · exact ⟨.number, rfl, rfl⟩
    · exact ⟨.boolean, rfl, rfl⟩
    · exact ⟨.integer, rfl, rfl⟩
    · exact ⟨.variable, rfl, rfl⟩

theorem listName_iff {name : String} :
    (∃ t, DeclaredType.ofName? name = some t ∧ t.isArrayLike = true) ↔ name ∈ listNames := by
  constructor
  · rintro ⟨t, known, list⟩
    obtain rfl := DeclaredType.ofName?_eq_some.mp known
    cases t <;> cases list <;> decide
  · intro listed
    rcases List.mem_cons.mp listed with rfl | listed
    · exact ⟨.array, rfl, rfl⟩
    · obtain rfl := List.mem_singleton.mp listed
      exact ⟨.mappedArray, rfl, rfl⟩

theorem unknownName_iff {name : String} :
    DeclaredType.ofName? name = none ↔ name ∉ scalarNames.map Prod.fst ∧ name ∉ listNames := by
  rw [← listName_iff]
  constructor
  · intro unknown
    refine ⟨fun scalar => ?_, fun ⟨t, known, _⟩ => by rw [unknown] at known; cases known⟩
    obtain ⟨entry, listed, rfl⟩ := List.mem_map.mp scalar
    obtain ⟨t, known, _⟩ := scalarName_iff.mpr listed
    rw [unknown] at known
    cases known
  · rintro ⟨scalar, list⟩
    cases known : DeclaredType.ofName? name with
    | none => rfl
    | some t =>
      cases like : t.isArrayLike with
      | true => exact absurd ⟨t, known, like⟩ list
      | false =>
        obtain ⟨type, mapped⟩ := scalarType?_eq_some like
        exact absurd (List.mem_map_of_mem (scalarName_iff.mp ⟨t, known, mapped⟩)) scalar

/-- The text of a scalar type is its name, except for integers and for what may vary. -/
theorem scalarNames_text {name : String} {type : TypeExpr} (listed : (name, type) ∈ scalarNames) : type.render =
    if name = "integer" then "number"
    else if name = "variable" then "string | number | boolean | Array<string>"
    else name := by
  simp only [scalarNames, List.mem_cons, List.not_mem_nil, or_false, Prod.mk.injEq] at listed
  rcases listed with ⟨rfl, rfl⟩ | ⟨rfl, rfl⟩ | ⟨rfl, rfl⟩ | ⟨rfl, rfl⟩ | ⟨rfl, rfl⟩ | ⟨rfl, rfl⟩ <;> decide

/-! ### Rules -/

/-- The outcome for a list, given the outcome for its items. -/
def Mapped.inList : Mapped → Mapped
  | .typed item => .typed (.array item)
  | .skipped e => .skipped e

variable {site : PropertySite} {p : Property} {outcome : Except MappingFailure Mapped}

inductive Meaning (site : PropertySite) : Property → Except MappingFailure Mapped → Prop where
  | reference {p : Property} {target : String} (referring : p.reference = some target) :
      Meaning site p (.ok (.typed (.reference target)))
  | nothing {p : Property} (unreferenced : p.reference = none) (untyped : p.typeName = none) :
      Meaning site p (.ok (.skipped (.untypedProperty site)))
  | scalar {p : Property} {name : String} {type : TypeExpr} (unreferenced : p.reference = none)
      (declared : p.typeName = some name) (known : (name, type) ∈ scalarNames) : Meaning site p (.ok (.typed type))
  | unknown {p : Property} {name : String} (unreferenced : p.reference = none) (declared : p.typeName = some name)
      (neither : name ∉ scalarNames.map Prod.fst ∧ name ∉ listNames) :
      Meaning site p (.error (.unknownType name site))
  | noItems {p : Property} {name : String} (unreferenced : p.reference = none) (declared : p.typeName = some name)
      (list : name ∈ listNames) (absent : p.items = none) : Meaning site p (.error (.missingItems site))
  | itemReference {p : Property} {name target : String} {items : Items} (unreferenced : p.reference = none)
      (declared : p.typeName = some name) (list : name ∈ listNames) (held : p.items = some items)
      (referring : items.reference = some target) : Meaning site p (.ok (.typed (.array (.reference target))))
  | itemNothing {p : Property} {name : String} (unreferenced : p.reference = none) (declared : p.typeName = some name)
      (list : name ∈ listNames) (held : p.items = some ⟨none, none⟩) :
      Meaning site p (.ok (.skipped (.untypedItems site)))
  | itemType {p : Property} {name itemType : String} {outcome : Except MappingFailure Mapped}
      (unreferenced : p.reference = none) (declared : p.typeName = some name) (list : name ∈ listNames)
      (held : p.items = some ⟨none, some itemType⟩) (inner : Meaning site (.typed itemType) outcome) :
      Meaning site p (outcome.map Mapped.inList)

/-- The items of a property that means a list. -/
theorem holds_iff {items : Items} : p.Holds items ↔
    p.reference = none ∧ (∃ name ∈ listNames, p.typeName = some name) ∧ p.items = some items := by
  constructor
  · rintro ⟨unreferenced, ⟨name, t, declared, known, list⟩, held⟩
    exact ⟨unreferenced, ⟨name, listName_iff.mp ⟨t, known, list⟩, declared⟩, held⟩
  · rintro ⟨unreferenced, ⟨name, list, declared⟩, held⟩
    obtain ⟨t, known, list⟩ := listName_iff.mpr list
    exact ⟨unreferenced, ⟨name, t, declared, known, list⟩, held⟩

theorem mapProperty_typed (site : PropertySite) (name : String) :
    mapProperty site (.typed name) = mapTypeName site name none := rfl

/-- A type name without items is mapped as that of items is. -/
theorem mapTypeName_none (site : PropertySite) (name : String) :
    mapTypeName site name none = (mapItemType site name).map Mapped.typed := by
  unfold mapTypeName mapItemType
  cases known : DeclaredType.ofName? name with
  | none => rfl
  | some t => cases scalar : scalarType? t <;> simp only [scalar] <;> rfl

theorem mapItems_named (site : PropertySite) (itemType : String) :
    mapItems site ⟨none, some itemType⟩ = (mapTypeName site itemType none).map Mapped.inList := by
  rw [mapTypeName_none]
  cases mapped : mapItemType site itemType <;> simp only [mapItems, mapped] <;> rfl

theorem mapProperty_of_holds {items : Items} (held : p.Holds items) : mapProperty site p = mapItems site items := by
  obtain ⟨unreferenced, ⟨name, t, declared, known, list⟩, present⟩ := held
  simp only [mapProperty, mapTypeName, unreferenced, declared, known, scalarType?_eq_none.mpr list, present]

theorem Meaning.ofHolds {itemType : String} (held : p.Holds ⟨none, some itemType⟩)
    (inner : Meaning site (.typed itemType) outcome) : Meaning site p (outcome.map Mapped.inList) := by
  obtain ⟨unreferenced, ⟨name, list, declared⟩, present⟩ := holds_iff.mp held
  exact .itemType unreferenced declared list present inner

theorem Fault.meaning {failure : MappingFailure} (fault : Fault site p failure) : Meaning site p (.error failure) := by
  have inItems {itemType : String} (typed : p.TypesItems itemType)
      (inner : Meaning site (.typed itemType) (.error failure)) : Meaning site p (.error failure) :=
    .ofHolds ⟨typed.unreferenced, typed.list, typed.items⟩ inner
  cases fault with
  | unknownType unreferenced declared unknown => exact .unknown unreferenced declared (unknownName_iff.mp unknown)
  | missingItems unreferenced declared known list absent =>
    exact .noItems unreferenced declared (listName_iff.mp ⟨_, known, list⟩) absent
  | unknownItemType typed unknown => exact inItems typed (.unknown rfl rfl (unknownName_iff.mp unknown))
  | nestedList typed known list => exact inItems typed (.noItems rfl rfl (listName_iff.mp ⟨_, known, list⟩) rfl)

theorem Gap.meaning {e : SoftError} (gap : Gap site p e) : Meaning site p (.ok (.skipped e)) := by
  cases gap with
  | property unreferenced untyped => exact .nothing unreferenced untyped
  | items held =>
    obtain ⟨unreferenced, ⟨name, list, declared⟩, present⟩ := holds_iff.mp held
    exact .itemNothing unreferenced declared list present

theorem Typing.meaning {type : TypeExpr} (typing : Typing p type) : Meaning site p (.ok (.typed type)) := by
  cases typing with
  | reference referring => exact .reference referring
  | scalar unreferenced declared known => exact .scalar unreferenced declared (scalarName_iff.mp known)
  | references held referring =>
    obtain ⟨unreferenced, ⟨name, list, declared⟩, present⟩ := holds_iff.mp held
    exact .itemReference unreferenced declared list present referring
  | @scalars items itemType item held unreferenced declared known =>
    obtain ⟨reference, typeName⟩ := items
    subst unreferenced declared
    have inner : Meaning site (.typed itemType) (.ok (.typed item)) := .scalar rfl rfl (scalarName_iff.mp known)
    exact .ofHolds held inner

/-- Mapping follows the rules, and they allow no other outcome. -/
theorem mapProperty_iff_meaning : mapProperty site p = outcome ↔ Meaning site p outcome := by
  constructor
  · rintro rfl
    cases mapped : mapProperty site p with
    | error failure => exact (mapProperty_eq_error.mp mapped).meaning
    | ok result =>
      cases result with
      | typed type => exact (mapProperty_eq_typed.mp mapped).meaning
      | skipped e => exact (mapProperty_eq_skipped.mp mapped).meaning
  · intro means
    -- by induction on the rules, of which only that for the type of items has another outcome in it
    induction means with
    | reference referring => exact mapProperty_eq_typed.mpr (.reference referring)
    | nothing unreferenced untyped => exact mapProperty_eq_skipped.mpr (.property unreferenced untyped)
    | scalar unreferenced declared known =>
      exact mapProperty_eq_typed.mpr (.scalar unreferenced declared (scalarName_iff.mpr known))
    | unknown unreferenced declared neither =>
      exact mapProperty_eq_error.mpr (.unknownType unreferenced declared (unknownName_iff.mpr neither))
    | noItems unreferenced declared list absent =>
      obtain ⟨t, known, list⟩ := listName_iff.mpr list
      exact mapProperty_eq_error.mpr (.missingItems unreferenced declared known list absent)
    | itemReference unreferenced declared list held referring =>
      exact mapProperty_eq_typed.mpr (.references (holds_iff.mpr ⟨unreferenced, ⟨_, list, declared⟩, held⟩) referring)
    | itemNothing unreferenced declared list held =>
      exact mapProperty_eq_skipped.mpr (.items (holds_iff.mpr ⟨unreferenced, ⟨_, list, declared⟩, held⟩))
    | itemType unreferenced declared list held _ ih =>
      rw [mapProperty_of_holds (holds_iff.mpr ⟨unreferenced, ⟨_, list, declared⟩, held⟩), mapItems_named,
        ← mapProperty_typed, ih]

/-! ### How far mapping goes -/

/-- The outcome of mapping, and how many times items are looked into on the way. -/
structure Walk where
  entries : Nat
  outcome : Except MappingFailure Mapped

mutual

/-- Maps a type name and counts. Items with a type of their own lead back here, without items. -/
def walkTypeName (site : PropertySite) (name : String) (items : Option Items) : Walk :=
  match DeclaredType.ofName? name with
  | none => ⟨0, .error (.unknownType name site)⟩
  | some t =>
    match scalarType? t, items with
    | some scalar, _ => ⟨0, .ok (.typed scalar)⟩
    | none, none => ⟨0, .error (.missingItems site)⟩
    | none, some items => walkItems site items
termination_by if items.isSome then 2 else 0

def walkItems (site : PropertySite) (items : Items) : Walk :=
  match items.reference, items.typeName with
  | some target, _ => ⟨1, .ok (.typed (.array (.reference target)))⟩
  | none, none => ⟨1, .ok (.skipped (.untypedItems site))⟩
  | none, some itemType =>
    let inner := walkTypeName site itemType none
    ⟨inner.entries + 1, inner.outcome.map Mapped.inList⟩
termination_by 1

end

def walkProperty (site : PropertySite) (p : Property) : Walk :=
  match p.reference, p.typeName with
  | some target, _ => ⟨0, .ok (.typed (.reference target))⟩
  | none, none => ⟨0, .ok (.skipped (.untypedProperty site))⟩
  | none, some name => walkTypeName site name p.items

theorem walkTypeName_none (site : PropertySite) (name : String) :
    walkTypeName site name none = ⟨0, mapTypeName site name none⟩ := by
  rw [walkTypeName]
  unfold mapTypeName
  cases DeclaredType.ofName? name with
  | none => rfl
  | some t => cases scalar : scalarType? t <;> simp only [scalar]

theorem walkItems_eq (site : PropertySite) (items : Items) : walkItems site items = ⟨1, mapItems site items⟩ := by
  obtain ⟨reference, typeName⟩ := items
  rw [walkItems]
  cases reference with
  | some target => rfl
  | none =>
    cases typeName with
    | none => rfl
    | some itemType =>
      dsimp only
      rw [mapItems_named, walkTypeName_none]

theorem walkTypeName_eq (site : PropertySite) (name : String) (items : Option Items) :
    (walkTypeName site name items).outcome = mapTypeName site name items ∧
      (walkTypeName site name items).entries ≤ 1 := by
  cases items with
  | none =>
    rw [walkTypeName_none]
    exact ⟨rfl, Nat.zero_le 1⟩
  | some items =>
    rw [walkTypeName]
    unfold mapTypeName
    cases DeclaredType.ofName? name with
    | none => exact ⟨rfl, Nat.zero_le 1⟩
    | some t =>
      dsimp only
      cases scalarType? t with
      | some scalar => exact ⟨rfl, Nat.zero_le 1⟩
      | none =>
        dsimp only
        rw [walkItems_eq]
        exact ⟨rfl, Nat.le_refl 1⟩

theorem walkProperty_eq (site : PropertySite) (p : Property) :
    (walkProperty site p).outcome = mapProperty site p ∧ (walkProperty site p).entries ≤ 1 := by
  unfold walkProperty mapProperty
  cases p.reference with
  | some target => exact ⟨rfl, Nat.zero_le 1⟩
  | none =>
    cases p.typeName with
    | none => exact ⟨rfl, Nat.zero_le 1⟩
    | some name => exact walkTypeName_eq site name p.items

/-! ### Types that properties have -/

/-- A type that is no list. -/
inductive Single : TypeExpr → Prop where
  | reference (name : String) : Single (.reference name)
  | keyword {k : Keyword} (basic : k ∈ [Keyword.object, .string, .number, .boolean]) : Single (.keyword k)
  | varying : Single .varying

theorem single_of_scalarName {name : String} {type : TypeExpr} (known : ScalarName name type) : Single type := by
  obtain ⟨t, _, scalar⟩ := known
  cases t <;> cases scalar <;> first | exact .varying | exact .keyword (by decide)

theorem Typing.single_or_list {type : TypeExpr} (typing : Typing p type) :
    Single type ∨ ∃ item, Single item ∧ type = .array item := by
  cases typing with
  | reference referring => exact .inl (.reference _)
  | scalar _ _ known => exact .inl (single_of_scalarName known)
  | references => exact .inr ⟨_, .reference _, rfl⟩
  | scalars _ _ _ known => exact .inr ⟨_, single_of_scalarName known, rfl⟩

/-! ### Names of lists -/

theorem mapTypeName_list {name : String} (list : name ∈ listNames) (items : Option Items) :
    mapTypeName site name items = (items.map (mapItems site)).getD (.error (.missingItems site)) := by
  obtain ⟨t, known, list⟩ := listName_iff.mpr list
  unfold mapTypeName
  rw [known]
  dsimp only
  rw [scalarType?_eq_none.mpr list]
  cases items <;> rfl

theorem mapProperty_list_congr {a b : String} (list : a ∈ listNames) (list' : b ∈ listNames) :
    mapProperty site { p with typeName := some a } = mapProperty site { p with typeName := some b } := by
  unfold mapProperty
  cases p.reference with
  | some target => rfl
  | none => exact (mapTypeName_list list p.items).trans (mapTypeName_list list' p.items).symm

theorem mapItems_list_congr {a b : String} (list : a ∈ listNames) (list' : b ∈ listNames) (reference : Option String) :
    mapItems site ⟨reference, some a⟩ = mapItems site ⟨reference, some b⟩ := by
  cases reference with
  | some target => rfl
  | none => rw [mapItems_named, mapItems_named, mapTypeName_list list, mapTypeName_list list']

theorem mapProperty_items_congr {items items' : Items} (same : mapItems site items = mapItems site items') :
    mapProperty site { p with items := some items } = mapProperty site { p with items := some items' } := by
  unfold mapProperty
  cases p.reference with
  | some target => rfl
  | none =>
    cases p.typeName with
    | none => rfl
    | some name =>
      dsimp only
      unfold mapTypeName
      cases DeclaredType.ofName? name with
      | none => rfl
      | some t => cases scalar : scalarType? t <;> simp only [scalar, same]

/-- The outcome for a property is the one that the rules give, where a scalar type is written as its name, except for
integers and for what may vary. Items that are lists themselves always fail, so that items are looked into once at
most, and a type is single or a list of a single type. The two names of lists can stand for each other. -/
theorem mapProperty_meaning (site : PropertySite) (p : Property) :
    (∀ outcome, mapProperty site p = outcome ↔ Meaning site p outcome) ∧
    (∀ name type, (name, type) ∈ scalarNames → type.render = if name = "integer" then "number"
      else if name = "variable" then "string | number | boolean | Array<string>" else name) ∧
    (∀ itemType ∈ listNames, p.reference = none → (∃ name ∈ listNames, p.typeName = some name) →
      p.items = some ⟨none, some itemType⟩ → mapProperty site p = .error (.missingItems site)) ∧
    ((walkProperty site p).outcome = mapProperty site p ∧ (walkProperty site p).entries ≤ 1) ∧
    (∀ type, mapProperty site p = .ok (.typed type) → Single type ∨ ∃ item, Single item ∧ type = .array item) ∧
    ∀ a ∈ listNames, ∀ b ∈ listNames,
      mapProperty site { p with typeName := some a } = mapProperty site { p with typeName := some b } ∧
      ∀ reference, mapProperty site { p with items := some ⟨reference, some a⟩ } =
        mapProperty site { p with items := some ⟨reference, some b⟩ } := by
  refine ⟨fun outcome => mapProperty_iff_meaning, fun name type => scalarNames_text, ?_, walkProperty_eq site p,
    fun type mapped => (mapProperty_eq_typed.mp mapped).single_or_list, ?_⟩
  · intro itemType nested unreferenced list held
    rw [mapProperty_of_holds (holds_iff.mpr ⟨unreferenced, list, held⟩), mapItems_named, mapTypeName_list nested]
    rfl
  · intro a list b list'
    exact ⟨mapProperty_list_congr list list', fun reference =>
      mapProperty_items_congr (mapItems_list_congr list list' reference)⟩

/-- A list of lists, and a list of what may vary. -/
theorem nested_list_meaning :
    mapProperty ⟨"Shot", "frames"⟩ { Property.typed "mapped_array" with items := some ⟨none, some "array"⟩ } =
      .error (.missingItems ⟨"Shot", "frames"⟩) ∧
    Meaning ⟨"Shot", "notes"⟩ { Property.typed "array" with items := some ⟨none, some "variable"⟩ }
      (.ok (.typed (.array .varying))) := by
  obtain ⟨_, _, nested, _⟩ := mapProperty_meaning ⟨"Shot", "frames"⟩
    { Property.typed "mapped_array" with items := some ⟨none, some "array"⟩ }
  obtain ⟨means, _⟩ := mapProperty_meaning ⟨"Shot", "notes"⟩
    { Property.typed "array" with items := some ⟨none, some "variable"⟩ }
  exact ⟨nested "array" (by decide) rfl ⟨"mapped_array", by decide, rfl⟩ rfl, (means _).mp rfl⟩

end EntityTypings.TypeScript
