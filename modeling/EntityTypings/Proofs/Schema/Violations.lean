import EntityTypings.Proofs.First
import EntityTypings.Proofs.Schema.Consistency

/-!
# The first violation of a listing

`Violation` lists what can be wrong with a listing and where, and `Place.before` the order in which a reader is told.
The check of a listing accepts the consistent listings and reports the first violation of any other:
`checkListing_reports_first`.
-/

namespace EntityTypings

/-- What is checked of a property. -/
inductive Aspect where
  | reference
  | typeName
  | items
  | itemReference

def Aspect.rank : Aspect → Nat
  | .reference => 0
  | .typeName => 1
  | .items => 2
  | .itemReference => 3

/-- What is checked of a listing, by the positions of its schemas. -/
inductive Place where
  | id (index : Nat)
  | mixin (index : Nat)
  | property (index : Nat) (name : String) (aspect : Aspect)

/-- All ids come first. Then come the schemas, each with its mixin and its properties in the order of their names. -/
def Place.before : Place → Place → Prop
  | .id i, .id j => i < j
  | .id _, _ => True
  | _, .id _ => False
  | .mixin i, .mixin j => i < j
  | .mixin i, .property j _ _ => i ≤ j
  | .property i _ _, .mixin j => i < j
  | .property i name aspect, .property j name' aspect' =>
    i < j ∨ i = j ∧ (name < name' ∨ name = name' ∧ aspect.rank < aspect'.rank)

/-- What can be wrong with a property of the schema `schema`. -/
inductive Property.Violates (known : List String) (schema name : String) (p : Property) :
    Aspect → Inconsistency → Prop where
  | reference {target : String} (refers : p.reference = some target) (unknown : target ∉ known) :
      Violates known schema name p .reference (.danglingReference schema target)
  | typeName {typeName : String} (declared : p.typeName = some typeName)
      (unknown : ∀ t : DeclaredType, t.name ≠ typeName) :
      Violates known schema name p .typeName (.unknownType typeName name schema)
  | items {t : DeclaredType} (declared : p.typeName = some t.name) (list : t.isArrayLike = true)
      (absent : p.items = none) : Violates known schema name p .items (.missingItems name schema)
  | itemReference {items : Items} {target : String} (held : p.items = some items)
      (refers : items.reference = some target) (unknown : target ∉ known) :
      Violates known schema name p .itemReference (.danglingReference schema target)

/-- What can be wrong with a listing. -/
inductive Violation (schemas : List EntitySchema) : Place → Inconsistency → Prop where
  | missingId {index : Nat} {s : EntitySchema} (listed : schemas[index]? = some s) (unnamed : s.id? = none) :
      Violation schemas (.id index) (.missingId index)
  | duplicateId {index : Nat} {s : EntitySchema} {id : String} (listed : schemas[index]? = some s)
      (named : s.id? = some id) (again : id ∈ listedIds (schemas.take index)) :
      Violation schemas (.id index) (.duplicateId id)
  | mixin {index : Nat} {s : EntitySchema} {id target : String} (listed : schemas[index]? = some s)
      (named : s.id? = some id) (extended : s.mixin = some target) (unknown : target ∉ listedIds schemas) :
      Violation schemas (.mixin index) (.danglingReference id target)
  | property {index : Nat} {s : EntitySchema} {id name : String} {p : Property} {aspect : Aspect}
      {reason : Inconsistency} (listed : schemas[index]? = some s) (named : s.id? = some id)
      (declared : (name, p) ∈ s.properties.entries)
      (violates : p.Violates (listedIds schemas) id name aspect reason) :
      Violation schemas (.property index name aspect) reason

theorem Place.before_asymm {a b : Place} (less : a.before b) : ¬b.before a := by
  have names {n m : String} (less : n < m) : ¬m < n := String.lt_asymm less
  cases a <;> cases b <;> simp only [Place.before] at less ⊢ <;> grind

variable {known seen : List String} {schema name : String} {p : Property} {reason : Inconsistency} {index : Nat}

/-! ### Ids -/

/-- The objection to the id of one schema. -/
def idObjection? (seen : List String) (index : Nat) (s : EntitySchema) : Option Inconsistency :=
  match s.id? with
  | none => some (.missingId index)
  | some id => if id ∈ seen then some (.duplicateId id) else none

theorem idObjection?_eq_some {s : EntitySchema} : idObjection? seen index s = some reason ↔
    (s.id? = none ∧ reason = .missingId index) ∨ ∃ id, s.id? = some id ∧ id ∈ seen ∧ reason = .duplicateId id := by
  unfold idObjection?
  cases s.id? with
  | none => simp [eq_comm (b := reason)]
  | some id => by_cases old : id ∈ seen <;> simp [old, eq_comm (b := reason)]

theorem refusal?_checkIds_cons (s : EntitySchema) (rest : List EntitySchema) :
    refusal? (checkIds seen index (s :: rest)) =
      (idObjection? seen index s).or (refusal? (checkIds (s.id?.toList ++ seen) (index + 1) rest)) := by
  rw [checkIds, idObjection?]
  cases s.id? with
  | none => rfl
  | some id =>
    by_cases old : id ∈ seen
    · simp [old, refusal?]
    · simp [old]

/-- An id is objected to where no id is given, or one that was seen or stands further up. -/
theorem checkIds_finds (schemas : List EntitySchema) : Finds Place.before (fun place reason =>
    ∃ k s, schemas[k]? = some s ∧ place = .id (index + k) ∧
      idObjection? (listedIds (schemas.take k) ++ seen) (index + k) s = some reason)
    (refusal? (checkIds seen index schemas)) := by
  induction schemas generalizing seen index with
  | nil =>
    rintro _ _ ⟨_, _, listed, _⟩
    cases listed
  | cons s rest ih =>
    have here : Finds Place.before (fun place reason => place = .id index ∧ idObjection? seen index s = some reason)
        (idObjection? seen index s) := Finds.single (fun _ => Place.id index) _
    -- the ids seen before a later schema are the id of `s` and those listed behind it
    have ids (k : Nat) : ∀ id, id ∈ listedIds (rest.take k) ++ (s.id?.toList ++ seen) ↔
        id ∈ listedIds ((s :: rest).take (k + 1)) ++ seen := by
      intro id
      cases named : s.id? <;> simp [listedIds, named, or_left_comm]
    have objection (k : Nat) (s' : EntitySchema) :
        idObjection? (listedIds (rest.take k) ++ (s.id?.toList ++ seen)) (index + 1 + k) s' =
          idObjection? (listedIds ((s :: rest).take (k + 1)) ++ seen) (index + (k + 1)) s' := by
      unfold idObjection?
      simp only [ids k, show index + 1 + k = index + (k + 1) by omega]
    rw [refusal?_checkIds_cons]
    refine (here.orElse (fun _ => ih) ?_).congr fun place reason => ?_
    · rintro a e b e' ⟨rfl, _⟩ ⟨k, _, _, rfl, _⟩
      show index < index + 1 + k
      omega
    · refine Iff.trans (or_congr ?_ (exists_congr fun k => ?_)) Nat.or_exists_add_one
      · simp [listedIds]
      · simp only [objection, List.getElem?_cons_succ]
        rw [show index + 1 + k = index + (k + 1) by omega]

/-! ### Properties -/

theorem checkReference_eq_error {reference : Option String} : checkReference known schema reference = .error reason ↔
    ∃ target, reference = some target ∧ target ∉ known ∧ reason = .danglingReference schema target := by
  cases reference with
  | none => simp [checkReference]
  | some target => by_cases listed : target ∈ known <;> simp [checkReference, listed, eq_comm (b := reason)]

theorem checkType_eq_error : checkType schema name p = .error reason ↔
    (∃ typeName, p.typeName = some typeName ∧ (∀ t : DeclaredType, t.name ≠ typeName) ∧
      reason = .unknownType typeName name schema) ∨
    ∃ t : DeclaredType, p.typeName = some t.name ∧ t.isArrayLike = true ∧ p.items = none ∧
      reason = .missingItems name schema := by
  unfold checkType
  simp only [← DeclaredType.ofName?_eq_none]
  cases p.typeName with
  | none => simp
  | some typeName =>
    simp only [Option.some.injEq, eq_comm (a := typeName), ← DeclaredType.ofName?_eq_some]
    cases known : DeclaredType.ofName? typeName with
    | none => simp [known, eq_comm (b := reason)]
    | some t => cases list : t.isArrayLike <;> cases p.items <;> simp [known, list, eq_comm (b := reason)]

/-- The aspect that an objection to the type of a property is about. -/
def typeAspect : Inconsistency → Aspect
  | .missingItems _ _ => .items
  | _ => .typeName

theorem checkProperty_finds (index : Nat) (known : List String) (schema : String) (entry : String × Property) :
    Finds Place.before (fun place reason => ∃ aspect, place = .property index entry.1 aspect ∧
      entry.2.Violates known schema entry.1 aspect reason) (refusal? (checkProperty known schema entry)) := by
  obtain ⟨name, p⟩ := entry
  have reference : Finds Place.before _ (refusal? (checkReference known schema p.reference)) :=
    Finds.single (fun _ => .property index name .reference) _
  have type : Finds Place.before _ (refusal? (checkType schema name p)) :=
    Finds.single (fun reason => .property index name (typeAspect reason)) _
  have items : Finds Place.before _ (refusal? (checkReference known schema (p.items.bind Items.reference))) :=
    Finds.single (fun _ => .property index name .itemReference) _
  have later {a b : Aspect} (less : a.rank < b.rank) :
      Place.before (.property index name a) (.property index name b) := .inr ⟨rfl, .inr ⟨rfl, less⟩⟩
  have about_type (reason : Inconsistency) : 0 < (typeAspect reason).rank ∧ (typeAspect reason).rank < 3 := by
    cases reason <;> exact ⟨by simp [typeAspect, Aspect.rank], by simp [typeAspect, Aspect.rank]⟩
  unfold checkProperty
  rw [refusal?_andThen, refusal?_andThen]
  refine (reference.orElse (fun _ => type.orElse (fun _ => items) ?_) ?_).congr fun place reason => ?_
  · rintro a e b e' ⟨rfl, _⟩ ⟨rfl, _⟩
    exact later (about_type e).2
  · rintro a e b e' ⟨rfl, _⟩ (⟨rfl, _⟩ | ⟨rfl, _⟩)
    · exact later (about_type e').1
    · exact later (by decide)
  · simp only [refusal?_eq_some, checkReference_eq_error, checkType_eq_error]
    constructor
    · rintro (⟨rfl, target, refers, unknown, rfl⟩ | ⟨rfl, wrong⟩ | ⟨rfl, target, refers, unknown, rfl⟩)
      · exact ⟨_, rfl, .reference refers unknown⟩
      · rcases wrong with ⟨typeName, declared, unknown, rfl⟩ | ⟨t, declared, list, absent, rfl⟩
        · exact ⟨_, rfl, .typeName declared unknown⟩
        · exact ⟨_, rfl, .items declared list absent⟩
      · obtain ⟨items, held, refers⟩ := Option.bind_eq_some_iff.mp refers
        exact ⟨_, rfl, .itemReference held refers unknown⟩
    · rintro ⟨aspect, rfl, violates⟩
      cases violates with
      | reference refers unknown => exact .inl ⟨rfl, _, refers, unknown, rfl⟩
      | typeName declared unknown => exact .inr (.inl ⟨rfl, .inl ⟨_, declared, unknown, rfl⟩⟩)
      | items declared list absent => exact .inr (.inl ⟨rfl, .inr ⟨_, declared, list, absent, rfl⟩⟩)
      | itemReference held refers unknown =>
        exact .inr (.inr ⟨rfl, _, Option.bind_eq_some_iff.mpr ⟨_, held, refers⟩, unknown, rfl⟩)

/-! ### Schemas -/

theorem checkSchema_finds (index : Nat) (known : List String) (s : EntitySchema) :
    Finds Place.before (fun place reason =>
      (place = .mixin index ∧ ∃ target, s.mixin = some target ∧ target ∉ known ∧
        reason = .danglingReference (s.id?.getD "") target) ∨
      ∃ entry ∈ s.properties.entries, ∃ aspect, place = .property index entry.1 aspect ∧
        entry.2.Violates known (s.id?.getD "") entry.1 aspect reason) (refusal? (checkSchema known s)) := by
  have mixin : Finds Place.before _ (refusal? (checkReference known (s.id?.getD "") s.mixin)) :=
    Finds.single (fun _ => .mixin index) _
  have each (entry : String × Property) (_ : entry ∈ s.properties.entries) :=
    checkProperty_finds index known (s.id?.getD "") entry
  have properties := Finds.findSome? each (s.properties.ascending.imp fun less _ _ _ _ early late => by
    obtain ⟨_, rfl, _⟩ := early
    obtain ⟨_, rfl, _⟩ := late
    exact .inr ⟨rfl, .inl less⟩)
  unfold checkSchema
  rw [refusal?_andThen, refusal?_forM]
  refine (mixin.orElse (fun _ => properties) ?_).congr fun place reason => ?_
  · rintro a e b e' ⟨rfl, _⟩ ⟨_, _, _, rfl, _⟩
    exact Nat.le_refl index
  · rw [refusal?_eq_some, checkReference_eq_error]

/-! ### Listings -/

def Place.isId : Place → Bool
  | .id _ => true
  | _ => false

theorem checkIds_violations (schemas : List EntitySchema) :
    Finds Place.before (fun place reason => place.isId = true ∧ Violation schemas place reason)
      (refusal? (checkIds [] 0 schemas)) := by
  refine (checkIds_finds schemas).congr fun place reason => ?_
  simp only [idObjection?_eq_some, List.append_nil, Nat.zero_add]
  constructor
  · rintro ⟨k, s, listed, rfl, ⟨unnamed, rfl⟩ | ⟨id, named, again, rfl⟩⟩
    · exact ⟨rfl, .missingId listed unnamed⟩
    · exact ⟨rfl, .duplicateId listed named again⟩
  · rintro ⟨ofId, violation⟩
    cases violation with
    | missingId listed unnamed => exact ⟨_, _, listed, rfl, .inl ⟨unnamed, rfl⟩⟩
    | duplicateId listed named again => exact ⟨_, _, listed, rfl, .inr ⟨_, named, again, rfl⟩⟩
    | mixin => cases ofId
    | property => cases ofId

/-- Where every schema has an id, its violations are reported under that id. -/
theorem checkSchemas_violations {schemas : List EntitySchema} (named : ∀ s ∈ schemas, s.id? ≠ none) :
    Finds Place.before (fun place reason => place.isId = false ∧ Violation schemas place reason)
      (refusal? (schemas.forM (checkSchema (listedIds schemas)))) := by
  rw [refusal?_forM, ← findSome?_zipIdx_fst]
  refine (Finds.findSome?_zipIdx (fun index s _ => checkSchema_finds index (listedIds schemas) s) ?_).congr
    fun place reason => ?_
  · intro i j _ _ _ _ _ _ less early late
    rcases early with ⟨rfl, _⟩ | ⟨_, _, _, rfl, _⟩ <;> rcases late with ⟨rfl, _⟩ | ⟨_, _, _, rfl, _⟩
    · exact less
    · exact Nat.le_of_lt less
    · exact less
    · exact .inl less
  · constructor
    · rintro ⟨i, s, listed, wrong⟩
      obtain ⟨id, present⟩ := Option.ne_none_iff_exists'.mp (named s (List.mem_of_getElem? listed))
      rw [present] at wrong
      rcases wrong with ⟨rfl, target, extended, unknown, rfl⟩ | ⟨entry, declared, aspect, rfl, violates⟩
      · exact ⟨rfl, .mixin listed present extended unknown⟩
      · exact ⟨rfl, .property listed present declared violates⟩
    · rintro ⟨ofSchema, violation⟩
      cases violation with
      | missingId => cases ofSchema
      | duplicateId => cases ofSchema
      | mixin listed present extended unknown =>
        exact ⟨_, _, listed, .inl ⟨rfl, _, extended, unknown, by rw [present]; rfl⟩⟩
      | property listed present declared violates =>
        exact ⟨_, _, listed, .inr ⟨_, declared, _, rfl, by rw [present]; exact violates⟩⟩

theorem checkListing_finds (schemas : List EntitySchema) :
    Finds Place.before (Violation schemas) (refusal? (checkListing schemas)) := by
  have others (accepted : refusal? (checkIds [] 0 schemas) = none) :
      Finds Place.before (fun place reason => place.isId = false ∧ Violation schemas place reason)
        (refusal? (schemas.forM (checkSchema (listedIds schemas)))) := by
    apply checkSchemas_violations
    cases checked : checkIds [] 0 schemas with
    | ok => exact (checkIds_eq_ok.mp checked).1
    | error reason => simp [checked, refusal?] at accepted
  unfold checkListing
  rw [refusal?_andThen]
  refine ((checkIds_violations schemas).orElse others ?_).congr fun place reason => ?_
  · rintro a e b e' ⟨ofId, _⟩ ⟨ofSchema, _⟩
    cases a <;> cases b <;> trivial
  · cases place.isId <;> simp

/-- The check of a listing accepts exactly the consistent listings, and reports the first violation of any other. -/
theorem checkListing_reports_first (schemas : List EntitySchema) :
    (checkListing schemas = .ok () ↔ ConsistentListing schemas) ∧
      ∀ reason, checkListing schemas = .error reason ↔ ∃ place, First Place.before (Violation schemas) place reason := by
  refine ⟨checkListing_eq_ok, fun reason => ?_⟩
  rw [← refusal?_eq_some]
  exact (checkListing_finds schemas).eq_some_iff Place.before_asymm

/-- A missing id is reported before anything that is wrong with a property. -/
example : checkListing [(EntitySchema.named "Shot").addProperty "fps" (.typed "float"), .empty] =
    .error (.missingId 1) := rfl

end EntityTypings
