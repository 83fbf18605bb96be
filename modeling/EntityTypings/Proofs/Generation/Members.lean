import EntityTypings.Generation.Pass
import EntityTypings.Proofs.TypeScript.Faults

/-!
# What one entry contributes

The recursion over an entry's properties in closed form: `mapProperties_of_faultless` gives the members and
the soft errors of properties without faults, and `mapProperties_eq_ok` shows that nothing else succeeds.
`interface?_report` reads an entry's interface off its report.
-/

namespace EntityTypings

open TypeScript

def Report.interface? (r : Report) : Option Interface :=
  match r.result with
  | .ok declared => declared
  | .error _ => none

/-- No property in the list stops a pass for the schema id `id`. -/
def Faultless (id : String) (properties : List (String × Property)) : Prop :=
  ∀ entry ∈ properties, ∀ failure, ¬Fault ⟨id, entry.1⟩ entry.2 failure

theorem faultless_cons {id : String} {entry : String × Property} {rest : List (String × Property)} :
    Faultless id (entry :: rest) ↔
      (∀ failure, ¬Fault ⟨id, entry.1⟩ entry.2 failure) ∧ Faultless id rest := List.forall_mem_cons

/-- The soft error that a property leaves. -/
def skip? (id : String) (entry : String × Property) : Option SoftError :=
  match mapProperty ⟨id, entry.1⟩ entry.2 with
  | .ok (.skipped e) => some e
  | _ => none

theorem skip?_eq_some {id : String} {entry : String × Property} {e : SoftError} :
    skip? id entry = some e ↔ mapProperty ⟨id, entry.1⟩ entry.2 = .ok (.skipped e) := by
  unfold skip?
  split
  next mapped => simp [mapped]
  next other => simpa using other e

namespace Job

variable {j : Job} {id : String} {s : EntitySchema} {properties : List (String × Property)}

/-- The member that a property gives. -/
def member? (j : Job) (id : String) (s : EntitySchema) (entry : String × Property) : Option Member :=
  match mapProperty ⟨id, entry.1⟩ entry.2 with
  | .ok (.typed t) => some (j.propertyMember s entry.1 entry.2 t)
  | _ => none

theorem member?_eq_some {entry : String × Property} {m : Member} :
    j.member? id s entry = some m ↔ ∃ type, mapProperty ⟨id, entry.1⟩ entry.2 = .ok (.typed type) ∧
      m = j.propertyMember s entry.1 entry.2 type := by
  unfold member?
  split
  next type mapped => simp [mapped, eq_comm]
  next other =>
    constructor
    · intro made
      cases made
    · rintro ⟨type, mapped, _⟩
      exact absurd mapped (other type)

theorem mapProperties_of_faultless (faultless : Faultless id properties) :
    j.mapProperties id s properties =
      (properties.filterMap (skip? id), .ok (properties.filterMap (j.member? id s))) := by
  induction properties with
  | nil => rfl
  | cons entry rest ih =>
    obtain ⟨name, p⟩ := entry
    obtain ⟨sound, faultless⟩ := faultless_cons.mp faultless
    unfold mapProperties
    rw [ih faultless]
    cases mapped : mapProperty ⟨id, name⟩ p with
    | error failure => exact absurd (mapProperty_eq_error.mp mapped) (sound failure)
    | ok outcome => cases outcome <;> simp [skip?, member?, mapped, Except.map]

theorem mapProperties_eq_ok {members : List Member}
    (h : (j.mapProperties id s properties).2 = .ok members) : Faultless id properties := by
  induction properties generalizing members with
  | nil => exact fun _ absent => absurd absent List.not_mem_nil
  | cons entry rest ih =>
    obtain ⟨name, p⟩ := entry
    unfold mapProperties at h
    have sound {outcome : Mapped} (mapped : mapProperty ⟨id, name⟩ p = .ok outcome) (failure) :
        ¬Fault ⟨id, name⟩ p failure := by
      intro fault
      rw [mapProperty_eq_error.mpr fault] at mapped
      cases mapped
    cases mapped : mapProperty ⟨id, name⟩ p with
    | error failure => simp [mapped] at h
    | ok outcome =>
      cases outcome with
      | skipped e =>
        simp only [mapped] at h
        exact faultless_cons.mpr ⟨sound mapped, ih h⟩
      | typed t =>
        simp only [mapped] at h
        cases tail : (j.mapProperties id s rest).2 with
        | error failure => simp [tail, Except.map] at h
        | ok others => exact faultless_cons.mpr ⟨sound mapped, ih tail⟩

theorem narrowed_mem_addedMembers {e : CatalogEntry} (specialises : e.isAlias = true) :
    Member.optional Dialect.customAttributes (j.narrowing.fieldType id) ∈ j.addedMembers id e := by
  rw [addedMembers, specialises]
  exact List.mem_append_left _ List.mem_cons_self

theorem mem_addedMembers {e : CatalogEntry} {m : Member} (added : m ∈ j.addedMembers id e) :
    (e.isAlias = true ∧ m = .optional Dialect.customAttributes (j.narrowing.fieldType id)) ∨
      m = .optional Dialect.entityType
        (if e.isTypedContext then .reference Dialect.typeParameter else .literal id) ∨
      m = .optional Dialect.permissions .openRecord := by
  rcases List.mem_append.mp added with narrowed | fixed
  · split at narrowed
    next specialises => exact .inl ⟨specialises, List.mem_singleton.mp narrowed⟩
    · cases narrowed
  · rcases List.mem_cons.mp fixed with entity | permissions
    · exact .inr (.inl entity)
    · exact .inr (.inr (List.mem_singleton.mp permissions))

/-! ### Reports -/

/-- The interface that an entry is declared as, if it has an id and no property of it stops the pass. -/
def interface? (j : Job) (e : CatalogEntry) : Option Interface := do
  let id ← e.id?
  let members ← (j.ownMembers id e).2.toOption
  some ⟨id, e.parents, members ++ j.addedMembers id e⟩

theorem interface?_report (j : Job) (index : Nat) (e : CatalogEntry) :
    (j.report index e).interface? = j.interface? e := by
  unfold report interface?
  cases e.id? with
  | none => rfl
  | some id =>
    cases members : (j.ownMembers id e).2 <;>
      simp [Report.interface?, members, Except.map, Except.toOption]

variable {e : CatalogEntry}

theorem report_eq_ok {index : Nat} :
    (∃ declared, (j.report index e).result = .ok declared) ↔
      ∀ id, e.id? = some id → Faultless id (j.catalog.ownProperties e) := by
  unfold report
  cases named : e.id? with
  | none => simp
  | some id =>
    constructor
    · rintro ⟨declared, done⟩ other same
      cases same
      cases members : (j.ownMembers id e).2 with
      | error failure => simp [members, Except.map] at done
      | ok ms => exact mapProperties_eq_ok members
    · intro faultless
      simp only [ownMembers, mapProperties_of_faultless (faultless id rfl)]
      exact ⟨_, rfl⟩

theorem interface?_of_faultless (named : e.id? = some id)
    (faultless : Faultless id (j.catalog.ownProperties e)) :
    j.interface? e = some ⟨id, e.parents,
      (j.catalog.ownProperties e).filterMap (j.member? id e.schema) ++ j.addedMembers id e⟩ := by
  simp [interface?, named, ownMembers, mapProperties_of_faultless faultless, Except.toOption]

theorem skipped_of_faultless {index : Nat} (named : e.id? = some id)
    (faultless : Faultless id (j.catalog.ownProperties e)) :
    (j.report index e).skipped = (j.catalog.ownProperties e).filterMap (skip? id) := by
  simp [report, named, ownMembers, mapProperties_of_faultless faultless]

/-! ### What a report depends on -/

theorem mapProperties_congr {j' : Job} (docs : j.settings.emitDocs = j'.settings.emitDocs) :
    j.mapProperties id s properties = j'.mapProperties id s properties := by
  have member : j.propertyMember s = j'.propertyMember s := by
    funext name p t
    rw [propertyMember, propertyMember, docs]
  induction properties with
  | nil => rfl
  | cons entry rest ih => rw [mapProperties, mapProperties, ih, member]

/-- Of the settings only that for comments enters a report, and of the other entries only what they mean for
its own properties and for the narrowed attributes. -/
theorem report_congr {j' : Job} (docs : j.settings.emitDocs = j'.settings.emitDocs)
    (narrowing : j.narrowing = j'.narrowing)
    (own : j.catalog.ownProperties e = j'.catalog.ownProperties e) (index : Nat) :
    j.report index e = j'.report index e := by
  unfold report
  cases e.id? with
  | none => rfl
  | some id => simp only [ownMembers, addedMembers, own, narrowing, mapProperties_congr docs]

end Job

end EntityTypings
