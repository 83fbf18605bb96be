import EntityTypings.Schema.Consistency

/-!
# What the check of a listing decides

`ConsistentListing` states consistency without the order of the checks. `checkListing_eq_ok` shows that
the check accepts exactly the consistent listings.
-/

namespace EntityTypings

/-- References of a property name known schemas, and its type is known, with items where it holds some. -/
structure Property.Consistent (known : List String) (p : Property) : Prop where
  reference : ∀ target, p.reference = some target → target ∈ known
  declared : ∀ typeName, p.typeName = some typeName →
    ∃ t, DeclaredType.ofName? typeName = some t ∧ (t.isArrayLike = true → p.items ≠ none)
  items : ∀ items target, p.items = some items → items.reference = some target → target ∈ known

structure EntitySchema.Consistent (known : List String) (s : EntitySchema) : Prop where
  mixin : ∀ target, s.mixin = some target → target ∈ known
  properties : ∀ entry ∈ s.properties.entries, entry.2.Consistent known

structure ConsistentListing (schemas : List EntitySchema) : Prop where
  named : ∀ s ∈ schemas, s.id? ≠ none
  distinct : (listedIds schemas).Nodup
  closed : ∀ s ∈ schemas, s.Consistent (listedIds schemas)

/-! ### Checks one after another -/

theorem andThen_eq_ok {first second : Except Inconsistency Unit} :
    (do first; second) = .ok () ↔ first = .ok () ∧ second = .ok () := by
  cases first with
  | error reason => simp [bind, Except.bind]
  | ok => simp [bind, Except.bind]

theorem forM_eq_ok {α : Type} {check : α → Except Inconsistency Unit} {xs : List α} :
    xs.forM check = .ok () ↔ ∀ x ∈ xs, check x = .ok () := by
  induction xs with
  | nil => simp [List.forM, pure, Except.pure]
  | cons x rest ih =>
    have unfolded : (x :: rest).forM check = (do check x; rest.forM check) := rfl
    rw [unfolded, andThen_eq_ok, ih, List.forall_mem_cons]

/-! ### Ids -/

theorem listedIds_cons_some {s : EntitySchema} {id : String} (rest : List EntitySchema)
    (named : s.id? = some id) : listedIds (s :: rest) = id :: listedIds rest :=
  List.filterMap_cons_some named

theorem checkIds_eq_ok {seen : List String} {index : Nat} {schemas : List EntitySchema} :
    checkIds seen index schemas = .ok () ↔
      (∀ s ∈ schemas, s.id? ≠ none) ∧ (listedIds schemas).Nodup ∧
        ∀ id ∈ listedIds schemas, id ∉ seen := by
  induction schemas generalizing seen index with
  | nil => simp [checkIds, listedIds]
  | cons s rest ih =>
    cases named : s.id? with
    | none => simp [checkIds, named]
    | some id =>
      rw [listedIds_cons_some rest named, List.nodup_cons]
      by_cases old : id ∈ seen
      · simp [checkIds, named, old]
      · -- The rest must avoid `id` as well, which is what makes `id` the only one of its name.
        simp only [checkIds, named, old, if_false]
        rw [ih, List.forall_mem_cons, List.forall_mem_cons]
        constructor
        · rintro ⟨allNamed, distinct, fresh⟩
          refine ⟨⟨by simp [named], allNamed⟩, ⟨fun again => ?_, distinct⟩, old, fun other listed => ?_⟩
          · exact fresh id again List.mem_cons_self
          · exact fun before => fresh other listed (List.mem_cons_of_mem _ before)
        · rintro ⟨⟨_, allNamed⟩, ⟨alone, distinct⟩, _, fresh⟩
          refine ⟨allNamed, distinct, fun other listed before => ?_⟩
          rcases List.mem_cons.mp before with rfl | before
          · exact alone listed
          · exact fresh other listed before

/-! ### Schemas and their properties -/

theorem checkReference_eq_ok {known : List String} {schema : String} {reference : Option String} :
    checkReference known schema reference = .ok () ↔
      ∀ target, reference = some target → target ∈ known := by
  cases reference with
  | none => simp [checkReference]
  | some target => by_cases listed : target ∈ known <;> simp [checkReference, listed]

theorem checkType_eq_ok {schema property : String} {p : Property} :
    checkType schema property p = .ok () ↔ ∀ typeName, p.typeName = some typeName →
      ∃ t, DeclaredType.ofName? typeName = some t ∧ (t.isArrayLike = true → p.items ≠ none) := by
  unfold checkType
  cases p.typeName with
  | none => simp
  | some typeName =>
    cases known : DeclaredType.ofName? typeName with
    | none => simp [known]
    | some t => cases list : t.isArrayLike <;> cases p.items <;> simp [known, list]

theorem checkProperty_eq_ok {known : List String} {schema : String} {entry : String × Property} :
    checkProperty known schema entry = .ok () ↔ entry.2.Consistent known := by
  unfold checkProperty
  rw [andThen_eq_ok, andThen_eq_ok, checkReference_eq_ok, checkType_eq_ok, checkReference_eq_ok]
  constructor
  · rintro ⟨reference, declared, items⟩
    exact ⟨reference, declared, fun i target held named => items target (by rw [held]; exact named)⟩
  · rintro ⟨reference, declared, items⟩
    refine ⟨reference, declared, fun target named => ?_⟩
    obtain ⟨i, held, named⟩ := Option.bind_eq_some_iff.mp named
    exact items i target held named

theorem checkSchema_eq_ok {known : List String} {s : EntitySchema} :
    checkSchema known s = .ok () ↔ s.Consistent known := by
  unfold checkSchema
  rw [andThen_eq_ok, checkReference_eq_ok, forM_eq_ok]
  simp only [checkProperty_eq_ok]
  exact ⟨fun ⟨mixin, properties⟩ => ⟨mixin, properties⟩, fun ⟨mixin, properties⟩ => ⟨mixin, properties⟩⟩

theorem checkListing_eq_ok {schemas : List EntitySchema} :
    checkListing schemas = .ok () ↔ ConsistentListing schemas := by
  unfold checkListing
  rw [andThen_eq_ok, checkIds_eq_ok, forM_eq_ok]
  simp only [checkSchema_eq_ok]
  constructor
  · rintro ⟨⟨named, distinct, _⟩, closed⟩
    exact ⟨named, distinct, closed⟩
  · rintro ⟨named, distinct, closed⟩
    exact ⟨⟨named, distinct, by simp⟩, closed⟩

end EntityTypings
