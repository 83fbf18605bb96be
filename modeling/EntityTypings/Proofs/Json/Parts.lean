import EntityTypings.Json.Decode

/-!
# Forms of parts

What a part of a record may look like, and that its reader accepts exactly that. A record is accepted if each of
its parts is, whatever the order in which they are read: `accepts_bind`.
-/

namespace EntityTypings.Json

/-- A result, and no refusal. -/
def Accepts {ε α : Type} (r : Except ε α) : Prop := ∃ a, r = .ok a

namespace Value

def IsText (v : Value) : Prop := ∃ s, v = .str s

def IsTexts (v : Value) : Prop := ∃ vs, v = .arr vs ∧ ∀ item ∈ vs, item.IsText

/-- An object whose members have this form. -/
def IsObject (form : List (String × Value) → Prop) (v : Value) : Prop := ∃ ms, v = .obj ms ∧ form ms

end Value

/-- A part that has this form where it is present. -/
def IfPresent (form : Value → Prop) (part : Option Value) : Prop := ∀ v, part = some v → form v

/-- A part that has this form where it is present and not null. -/
def OrNull (form : Value → Prop) (part : Option Value) : Prop := IfPresent (fun v => v = .null ∨ form v) part

/-- A member of this name that is a text. -/
def HasText (name : String) (ms : List (String × Value)) : Prop := ∃ s, ms.lookup name = some (.str s)

section

variable {form : Value → Prop} {v : Value}

theorem ifPresent_none : IfPresent form none ↔ True := by simp [IfPresent]

theorem ifPresent_some : IfPresent form (some v) ↔ form v := by simp [IfPresent]

theorem orNull_none : OrNull form none ↔ True := ifPresent_none

theorem orNull_null : OrNull form (some .null) ↔ True := by simp [OrNull, ifPresent_some]

theorem orNull_some (notNull : v ≠ .null) : OrNull form (some v) ↔ form v := by
  simp [OrNull, ifPresent_some, notNull]

end

/-! ### Results -/

section

variable {ε α β : Type} {r : Except ε α}

theorem bind_eq_ok {f : α → Except ε β} {b : β} : r >>= f = .ok b ↔ ∃ a, r = .ok a ∧ f a = .ok b := by
  cases r <;> simp [bind, Except.bind]

theorem map_eq_ok {f : α → β} {b : β} : r.map f = .ok b ↔ ∃ a, r = .ok a ∧ f a = b := by
  cases r <;> simp [Except.map]

theorem mapError_ok {δ : Type} (f : ε → δ) (a : α) : (Except.ok a).mapError f = .ok a := rfl

theorem mapError_error {δ : Type} (f : ε → δ) (e : ε) : (Except.error e : Except ε α).mapError f = .error (f e) := rfl

theorem mapError_eq_ok {δ : Type} {f : ε → δ} {a : α} : r.mapError f = .ok a ↔ r = .ok a := by
  cases r with
  | error e => simp [mapError_error]
  | ok b => simp [mapError_ok]

theorem accepts_ok (a : α) : Accepts (.ok a : Except ε α) ↔ True := iff_of_true ⟨a, rfl⟩ trivial

theorem accepts_error (e : ε) : Accepts (.error e : Except ε α) ↔ False := by simp [Accepts]

theorem accepts_map {f : α → β} : Accepts (r.map f) ↔ Accepts r := by
  cases r <;> simp [Except.map, accepts_ok, accepts_error]

theorem accepts_bind_iff {f : α → Except ε β} : Accepts (r >>= f) ↔ ∃ a, r = .ok a ∧ Accepts (f a) := by
  cases r with
  | error e => simp [bind, Except.bind, accepts_error]
  | ok a => simp [bind, Except.bind]

theorem accepts_bind {f : α → Except ε β} {rest : Prop} (later : ∀ a, Accepts (f a) ↔ rest) :
    Accepts (r >>= f) ↔ Accepts r ∧ rest := by
  simp only [accepts_bind_iff, later, exists_and_right]
  rfl

theorem accepts_mapM {f : α → Except ε β} {xs : List α} :
    Accepts (xs.mapM f) ↔ ∀ x ∈ xs, Accepts (f x) := by
  induction xs with
  | nil => simp [accepts_ok, pure, Except.pure]
  | cons x xs ih =>
    rw [List.mapM_cons, List.forall_mem_cons, ← ih]
    refine accepts_bind fun _ => ?_
    exact (accepts_bind fun _ => accepts_ok _).trans (and_iff_left trivial)

end

/-! ### Readers of parts -/

variable {α : Type} {form : Value → Prop} {part : Option Value} {v : Value}

theorem decodeString_accepts : Accepts (decodeString v) ↔ v.IsText := by
  cases v <;> simp [decodeString, Value.wrongForm, accepts_ok, accepts_error, Value.IsText]

theorem decodeBool_accepts : Accepts (decodeBool v) ↔ ∃ b, v = .bool b := by
  cases v <;> simp [decodeBool, Value.wrongForm, accepts_ok, accepts_error]

theorem absentable_accepts {decode : Value → Except Mismatch α} (accepts : ∀ v, Accepts (decode v) ↔ form v) :
    Accepts (absentable decode part) ↔ IfPresent form part := by
  cases part with
  | none => exact (accepts_ok _).trans ifPresent_none.symm
  | some v => rw [absentable, accepts_map, accepts, ifPresent_some]

theorem nullable_accepts {decode : Value → Except Mismatch α} (accepts : ∀ v, Accepts (decode v) ↔ form v) :
    Accepts (nullable decode part) ↔ OrNull form part := by
  unfold nullable
  split
  · exact (accepts_ok _).trans orNull_none.symm
  · exact (accepts_ok _).trans orNull_null.symm
  next v notNull => rw [accepts_map, accepts, orNull_some notNull]

theorem decodeNames_accepts : Accepts (decodeNames part) ↔ OrNull Value.IsTexts part := by
  unfold decodeNames
  split
  · exact (accepts_ok _).trans orNull_none.symm
  · exact (accepts_ok _).trans orNull_null.symm
  next vs =>
    rw [accepts_mapM, orNull_some (by simp)]
    simp [decodeString_accepts, Value.IsTexts]
  next v notNull notList =>
    rw [orNull_some notNull]
    refine (accepts_error _).trans (iff_of_false id ?_)
    rintro ⟨vs, rfl, _⟩
    exact notList vs rfl

theorem objectPart_accepts {name : String} {decode : List (String × Value) → Except Mismatch α}
    {members : List (String × Value) → Prop} (accepts : ∀ ms, Accepts (decode ms) ↔ members ms) (v : Value) :
    Accepts (objectPart name decode v) ↔ v.IsObject members := by
  cases v <;> simp [objectPart, accepts, accepts_error, Value.IsObject]

theorem Wrapper.ofMembers_accepts (w : Wrapper) (ms : List (String × Value)) :
    Accepts (w.ofMembers ms) ↔ HasText w.field ms := by
  unfold ofMembers HasText
  cases ms.lookup w.field with
  | none => simp [accepts_error]
  | some v => simp [decodeString_accepts, Value.IsText]

end EntityTypings.Json
