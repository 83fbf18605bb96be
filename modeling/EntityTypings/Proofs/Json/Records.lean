import EntityTypings.Proofs.Json.Settled
import Mathlib.Data.List.Forall2

/-!
# Records are read back

What the parts of a written record are read as: texts, lists of texts, parts that may be absent, and values that
are kept as they are. `lookup_asRead` finds the fields of a record among the members that are read where it was
written.
-/

namespace EntityTypings.Json

/-- The members that are read where these fields were written. -/
def asRead (fields : List (String × Value)) : List (String × Value) :=
  (NameTable.ofList (orderedMembers fields)).entries

/-- An object whose members this record is read from. -/
def Value.ReadsAs {α : Type} (decode : List (String × Value) → Except Mismatch α) (x : α) (v : Value) : Prop :=
  ∃ ms, v = .obj ms ∧ decode ms = .ok x

/-- A value other than null, as it was read. -/
structure Value.Kept (depth : Nat) (v : Value) : Prop where
  notNull : v ≠ .null
  settled : v.Settled depth

theorem lookup_map_value {β γ : Type} (f : β → γ) (ms : List (String × β)) (name : String) :
    (ms.map fun m => (m.1, f m.2)).lookup name = (ms.lookup name).map f := by
  induction ms with
  | nil => rfl
  | cons m ms ih =>
    rw [List.map_cons, List.lookup_cons, List.lookup_cons, ih]
    cases name == m.1 <;> rfl

/-! ### Fields -/

section

variable (fields : List (String × Value)) (name key : String)

/-- Of two fields with one name, the later is read. -/
theorem lookup_asRead : (asRead fields).lookup key = (fields.reverse.lookup key).map Value.ordered := by
  calc (asRead fields).lookup key
    _ = (orderedMembers fields).reverse.lookup key := NameTable.lookup_ofList _ key
    _ = (fields.reverse.map fun m => (m.1, m.2.ordered)).lookup key := by
      rw [orderedMembers_eq_map, List.map_reverse]
    _ = (fields.reverse.lookup key).map Value.ordered := lookup_map_value _ _ key

@[simp] theorem lookup_asRead_nil : (asRead []).lookup key = none := rfl

@[simp] theorem lookup_asRead_append (others : List (String × Value)) :
    (asRead (fields ++ others)).lookup key = ((asRead others).lookup key).or ((asRead fields).lookup key) := by
  simp only [lookup_asRead, List.reverse_append, List.lookup_append, Option.map_or]

@[simp] theorem lookup_asRead_cons (v : Value) :
    (asRead ((name, v) :: fields)).lookup key =
      ((asRead fields).lookup key).or (if key = name then some v.ordered else none) := by
  have alone : ([(name, v)].lookup key).map Value.ordered = if key = name then some v.ordered else none := by
    split
    next same => rw [same, lookup_cons_self, Option.map_some]
    next different => rw [lookup_cons_of_ne _ _ different, List.lookup_nil, Option.map_none]
  rw [lookup_asRead, lookup_asRead, List.reverse_cons, List.lookup_append, Option.map_or, alone]

@[simp] theorem lookup_asRead_fieldIf (v : Option Value) :
    (asRead (fieldIf name v)).lookup key = if key = name then v.map Value.ordered else none := by
  cases v with
  | none => simp [fieldIf]
  | some v => simp [fieldIf]

end

theorem forall_mem_fieldIf {p : String × Value → Prop} {name : String} {v : Option Value} :
    (∀ m ∈ fieldIf name v, p m) ↔ ∀ x ∈ v, p (name, x) := by
  cases v <;> simp [fieldIf]

theorem forall_mem_part {α β : Type} {f : α → β} {p : β → Prop} {part : Option α} :
    (∀ y ∈ part.map f, p y) ↔ ∀ x ∈ part, p (f x) := by
  cases part <;> simp

/-! ### Parts -/

section

variable {α : Type} {part : Option α}

theorem nullable_map {decode : Value → Except Mismatch α} {encode : α → Value}
    (back : ∀ x ∈ part, encode x ≠ .null ∧ decode (encode x) = .ok x) :
    nullable decode (part.map encode) = .ok part := by
  cases part with
  | none => rfl
  | some x =>
    obtain ⟨notNull, decoded⟩ := back x rfl
    show nullable decode (some (encode x)) = .ok (some x)
    unfold nullable
    split
    next absent => cases absent
    next null => exact absurd (Option.some.inj null) notNull
    next present =>
      cases present
      rw [decoded]
      rfl

theorem nullable_object {name : String} {decode : List (String × Value) → Except Mismatch α} {encode : α → Value}
    (back : ∀ x ∈ part, (encode x).ReadsAs decode x) :
    nullable (objectPart name decode) (part.map encode) = .ok part := by
  refine nullable_map fun x present => ?_
  obtain ⟨ms, object, decoded⟩ := back x present
  rw [object]
  exact ⟨by simp, decoded⟩

@[simp] theorem nullable_text (part : Option String) :
    nullable decodeString (part.map (Value.ordered ∘ Value.str)) = .ok part := by
  exact nullable_map fun text _ => ⟨by simp [Value.ordered], rfl⟩

theorem mapM_eq_ok {β ε : Type} {g : β → Except ε α} {xs : List β} {ys : List α}
    (each : List.Forall₂ (fun x y => g x = .ok y) xs ys) : xs.mapM g = .ok ys := by
  induction each with
  | nil => rfl
  | cons first _ ih =>
    rw [List.mapM_cons, first, ih]
    rfl

theorem mapM_map_ok {β ε : Type} {f : α → β} {g : β → Except ε α} {xs : List α}
    (back : ∀ x ∈ xs, g (f x) = .ok x) : (xs.map f).mapM g = .ok xs := by
  apply mapM_eq_ok
  rw [List.forall₂_map_left_iff, List.forall₂_same]
  exact back

theorem of_nullable_eq_some {decode : Value → Except Mismatch α} {v : Option Value} {x : α}
    (read : nullable decode v = .ok (some x)) : ∃ present, v = some present ∧ decode present = .ok x := by
  unfold nullable at read
  split at read
  · cases read
  · cases read
  next present _ =>
    obtain ⟨y, decoded, same⟩ := map_eq_ok.mp read
    cases same
    exact ⟨present, rfl, decoded⟩

theorem readsAs_of_objectPart {name : String} {decode : List (String × Value) → Except Mismatch α} {v : Value} {x : α}
    (read : objectPart name decode v = .ok x) : v.ReadsAs decode x := by
  cases v with
  | obj ms => exact ⟨ms, rfl, read⟩
  | _ => cases read

theorem mem_of_mapM {β ε : Type} {f : β → Except ε α} {xs : List β} {ys : List α} (read : xs.mapM f = .ok ys) :
    ∀ y ∈ ys, ∃ x ∈ xs, f x = .ok y := by
  induction xs generalizing ys with
  | nil =>
    cases read
    exact List.forall_mem_nil _
  | cons x xs ih =>
    rw [List.mapM_cons] at read
    obtain ⟨first, readFirst, read⟩ := bind_eq_ok.mp read
    obtain ⟨others, readOthers, read⟩ := bind_eq_ok.mp read
    cases read
    refine List.forall_mem_cons.mpr ⟨⟨x, List.mem_cons_self, readFirst⟩, fun y listed => ?_⟩
    obtain ⟨x, member, decoded⟩ := ih readOthers y listed
    exact ⟨x, List.mem_cons_of_mem _ member, decoded⟩

end

theorem decodeNames_encodeNames (names : List String) : decodeNames (some (encodeNames names).ordered) = .ok names := by
  rw [encodeNames, Value.ordered, orderedItems_eq_map, List.map_map]
  exact mapM_map_ok fun _ _ => rfl

theorem Wrapper.encode_readsAs (w : Wrapper) (text : String) : (w.encode text).ordered.ReadsAs w.ofMembers text := by
  refine ⟨_, rfl, ?_⟩
  show w.ofMembers [(w.field, .str text)] = .ok text
  rw [ofMembers, lookup_cons_self]
  rfl

/-! ### Values that are kept -/

section

variable {depth : Nat} {v : Value} {ms : List (String × Value)}

theorem present_map_ordered {part : Option Value} (kept : ∀ v ∈ part, v.Kept depth) :
    present (part.map Value.ordered) = part := by
  cases part with
  | none => rfl
  | some v =>
    obtain ⟨notNull, settled⟩ := kept v rfl
    rw [Option.map_some, settled.ordered]
    unfold present
    split
    next null => exact absurd (Option.some.inj null) notNull
    next => rfl

theorem settled_of_lookup {name : String} (each : ∀ m ∈ ms, m.2.Settled depth) (found : ms.lookup name = some v) :
    v.Settled depth := by
  obtain ⟨before, after, rfl, -⟩ := List.lookup_eq_some_iff.mp found
  exact each _ (List.mem_append_right _ List.mem_cons_self)

theorem kept_of_present {name : String} (each : ∀ m ∈ ms, m.2.Settled depth) :
    ∀ v ∈ present (ms.lookup name), v.Kept depth := by
  intro v found
  unfold present at found
  split at found
  · cases found
  next notNull =>
    refine ⟨?_, settled_of_lookup each found⟩
    rintro rfl
    exact notNull found

end

end EntityTypings.Json
