import EntityTypings.Json.Reader
import EntityTypings.Proofs.Json.Tokens

/-!
# Values are read back

The compact text of a value whose numbers are integers is read as that value, with the members of its objects in
order: `readValue_written` says so for a text with more behind it, `Value.read_write` for a whole one.
-/

namespace EntityTypings.Json

mutual

/-- The value with the members of its objects in ascending order. -/
def Value.ordered : Value → Value
  | .null => .null
  | .bool b => .bool b
  | .num n => .num n
  | .str s => .str s
  | .arr vs => .arr (orderedItems vs)
  | .obj ms => .ofPairs (orderedMembers ms)

def orderedItems : List Value → List Value
  | [] => []
  | v :: vs => v.ordered :: orderedItems vs

def orderedMembers : List (String × Value) → List (String × Value)
  | [] => []
  | (name, v) :: ms => (name, v.ordered) :: orderedMembers ms

end

theorem orderedItems_eq_map (vs : List Value) : orderedItems vs = vs.map Value.ordered := by
  induction vs with
  | nil => rfl
  | cons v vs ih => rw [orderedItems, ih, List.map_cons]

theorem orderedMembers_eq_map (ms : List (String × Value)) :
    orderedMembers ms = ms.map fun m => (m.1, m.2.ordered) := by
  induction ms with
  | nil => rfl
  | cons m ms ih => rw [orderedMembers, ih, List.map_cons]

/-- A value whose numbers are integers and whose lists and objects nest at most `depth` deep. -/
inductive Value.Fits : Nat → Value → Prop where
  | null {depth : Nat} : Fits depth .null
  | bool {depth : Nat} (b : Bool) : Fits depth (.bool b)
  | num {depth : Nat} {n : Number} (integer : n.IsInteger) : Fits depth (.num n)
  | str {depth : Nat} (s : String) : Fits depth (.str s)
  | arr {depth : Nat} {vs : List Value} (each : ∀ v ∈ vs, Fits depth v) : Fits (depth + 1) (.arr vs)
  | obj {depth : Nat} {ms : List (String × Value)} (each : ∀ m ∈ ms, Fits depth m.2) : Fits (depth + 1) (.obj ms)

/-! ### How a value's text starts -/

/-- A character that a value's text may start with: no space, and no closing bracket. -/
def Opens (c : Char) : Prop := isSpace c = false ∧ c ≠ ']'

theorem skipSpace_cons {c : Char} {t : List Char} (visible : isSpace c = false) : skipSpace (c :: t) = c :: t := by
  simp [skipSpace, visible]

theorem Number.written_head {n : Number} (integer : n.IsInteger) :
    ∃ c t, n.written = c :: t ∧ (c = '-' ∨ c.isDigit = true) := by
  cases n with
  | float x => exact integer.elim
  | int n =>
    rw [Number.written, writtenInt]
    split
    · exact ⟨'-', _, rfl, .inl rfl⟩
    · obtain ⟨d, ds, written⟩ := List.exists_cons_of_ne_nil (Nat.toDigits_ne_nil (n := n.natAbs) (b := 10))
      have digit := Nat.isDigit_of_mem_toDigits (by decide) (by decide) (written ▸ List.mem_cons_self)
      exact ⟨d, ds, written, .inr digit⟩

theorem ne_of_numeral {c d : Char} (numeral : c = '-' ∨ c.isDigit = true) (noDigit : d.isDigit = false)
    (noSign : d ≠ '-') : c ≠ d := by
  rintro rfl
  rcases numeral with rfl | digit
  · exact noSign rfl
  · simp [noDigit] at digit

theorem opens_of_numeral {c : Char} (numeral : c = '-' ∨ c.isDigit = true) : Opens c := by
  have other {d : Char} (noDigit : d.isDigit = false) (noSign : d ≠ '-') := ne_of_numeral numeral noDigit noSign
  refine ⟨?_, other rfl (by decide)⟩
  simp only [isSpace, Bool.or_eq_false_iff, beq_eq_false_iff_ne]
  exact ⟨⟨⟨other rfl (by decide), other rfl (by decide)⟩, other rfl (by decide)⟩, other rfl (by decide)⟩

theorem Value.written_head {depth : Nat} {v : Value} (fits : v.Fits depth) :
    ∃ c t, v.written = c :: t ∧ Opens c := by
  cases fits with
  | null => exact ⟨_, _, rfl, rfl, by decide⟩
  | bool b => cases b <;> exact ⟨_, _, rfl, rfl, by decide⟩
  | num integer =>
    obtain ⟨c, t, written, numeral⟩ := Number.written_head integer
    exact ⟨c, t, written, opens_of_numeral numeral⟩
  | str s => exact ⟨_, _, rfl, rfl, by decide⟩
  | @arr _ vs => cases vs <;> exact ⟨_, _, rfl, rfl, by decide⟩
  | @obj _ ms => cases ms <;> exact ⟨_, _, rfl, rfl, by decide⟩

/-! ### One step of reading -/

section

variable {steps depth : Nat} {rest : List Char}

theorem readValue_numeral {c : Char} {t : List Char} (numeral : c = '-' ∨ c.isDigit = true) :
    readValue (steps + 1) depth (c :: t) = (scanNumber (c :: t)).map fun p => (.num p.1, p.2) := by
  have other {d : Char} (noDigit : d.isDigit = false) (noSign : d ≠ '-') := ne_of_numeral numeral noDigit noSign
  have word : c ≠ 'n' ∧ c ≠ 't' ∧ c ≠ 'f' ∧ c ≠ '"' :=
    ⟨other rfl (by decide), other rfl (by decide), other rfl (by decide), other rfl (by decide)⟩
  rw [readValue, skipSpace_cons (opens_of_numeral numeral).1]
  simp only [word, numeral, if_false, if_true]
  cases scanNumber (c :: t) <;> rfl

theorem readValue_string {s : String} {t : List Char} (read : scanString t = .ok (s, rest)) :
    readValue (steps + 1) depth ('"' :: t) = .ok (.str s, rest) := by
  rw [readValue, skipSpace_cons rfl]
  simp only [Char.reduceEq, if_false, if_true, read, bind, Except.bind]

theorem readValue_list {vs : List Value} {t : List Char} (read : readFirstItem steps depth t = .ok (vs, rest)) :
    readValue (steps + 1) (depth + 1) ('[' :: t) = .ok (.arr vs, rest) := by
  rw [readValue, skipSpace_cons rfl]
  simp only [Char.reduceEq, if_false, if_true, read, bind, Except.bind]
  rfl

theorem readValue_object {ms : List (String × Value)} {t : List Char}
    (read : readFirstMember steps depth t = .ok (ms, rest)) :
    readValue (steps + 1) (depth + 1) ('\x7b' :: t) = .ok (.ofPairs ms, rest) := by
  rw [readValue, skipSpace_cons rfl]
  simp only [Char.reduceEq, if_false, if_true, read, bind, Except.bind]
  rfl

theorem readFirstItem_cons {c : Char} {t behind : List Char} {v : Value} {vs : List Value} (opens : Opens c)
    (read : readValue steps depth (c :: t) = .ok (v, behind))
    (readOthers : readItems steps depth behind = .ok (vs, rest)) :
    readFirstItem (steps + 1) depth (c :: t) = .ok (v :: vs, rest) := by
  rw [readFirstItem, skipSpace_cons opens.1]
  split
  next nothing => cases nothing
  next closed => exact absurd (List.cons.inj closed).1 opens.2
  next => simp only [read, readOthers, bind, Except.bind]

theorem readItems_cons {c : Char} {t behind : List Char} {v : Value} {vs : List Value} (opens : Opens c)
    (read : readValue steps depth (c :: t) = .ok (v, behind))
    (readOthers : readItems steps depth behind = .ok (vs, rest)) :
    readItems (steps + 1) depth (',' :: c :: t) = .ok (v :: vs, rest) := by
  rw [readItems, skipSpace_cons rfl]
  split
  next nothing => cases nothing
  next closed => cases closed
  next comma =>
    obtain rfl := (List.cons.inj comma).2
    rw [skipSpace_cons opens.1]
    split
    next nothing => cases nothing
    next closed => exact absurd (List.cons.inj closed).1 opens.2
    next => simp only [read, readOthers, bind, Except.bind]
  next noComma => exact absurd rfl (noComma _)

theorem readMember_cons {name : String} {t behind : List Char} {v : Value} {ms : List (String × Value)}
    (read : readValue steps depth t = .ok (v, behind))
    (readOthers : readMembers steps depth behind = .ok (ms, rest)) :
    readMember (steps + 1) depth (name.toList.flatMap writtenChar ++ '"' :: ':' :: t) =
      .ok ((name, v) :: ms, rest) := by
  have colon : scanColon (':' :: t) = .ok t := rfl
  simp only [readMember, scanString_written, colon, read, readOthers, bind, Except.bind]

end

/-! ### Reading what was written -/

theorem behind_writtenItems (vs : List Value) (rest : List Char) : Behind (writtenItems vs ++ rest) := by
  cases vs with
  | nil => exact .bracket rest
  | cons v vs => exact .comma _

theorem behind_writtenMembers (ms : List (String × Value)) (rest : List Char) :
    Behind (writtenMembers ms ++ rest) := by
  cases ms with
  | nil => exact .brace rest
  | cons m ms => exact .comma _

-- By recursion on the value. At most three steps are taken from one character to the value behind it.
mutual

/-- A written value is read back, whatever stands behind it. -/
theorem readValue_written (v : Value) {steps depth : Nat} {rest : List Char} (fits : v.Fits depth)
    (enough : 3 * v.written.length ≤ steps) (behind : Behind rest) :
    readValue steps depth (v.written ++ rest) = .ok (v.ordered, rest) := by
  have some_steps : 3 ≤ steps := by
    obtain ⟨c, t, written, -⟩ := Value.written_head fits
    rw [written, List.length_cons] at enough
    omega
  obtain ⟨steps, rfl⟩ := Nat.exists_eq_add_of_le' some_steps
  cases v with
  | null =>
    rw [readValue]
    rfl
  | bool b =>
    rw [readValue]
    cases b <;> rfl
  | num n =>
    cases fits with | num integer =>
    obtain ⟨c, t, written, numeral⟩ := Number.written_head integer
    have read := scanNumber_written integer behind
    rw [written, List.cons_append] at read
    rw [Value.written, written, List.cons_append, readValue_numeral numeral, read]
    rfl
  | str s =>
    rw [Value.written, writtenString, List.cons_append, List.cons_append, List.append_assoc]
    exact readValue_string (scanString_written s rest)
  | arr vs =>
    cases fits with | arr fitEach =>
    cases vs with
    | nil => exact readValue_list (by rw [readFirstItem]; rfl)
    | cons v vs =>
      rw [Value.written, List.cons_append, List.length_cons, List.length_append] at enough
      obtain ⟨fits, fitOthers⟩ := List.forall_mem_cons.mp fitEach
      obtain ⟨c, t, written, opens⟩ := Value.written_head fits
      have enoughFirst : 3 * v.written.length ≤ steps + 1 := by omega
      have enoughOthers : 3 * (writtenItems vs).length ≤ steps + 1 := by omega
      have read := readValue_written v fits enoughFirst (behind_writtenItems vs rest)
      have readOthers := readItems_written vs rest fitOthers enoughOthers
      rw [Value.written, List.cons_append, List.cons_append, List.append_assoc]
      rw [written, List.cons_append] at read ⊢
      exact readValue_list (readFirstItem_cons opens read readOthers)
  | obj ms =>
    cases fits with | obj fitEach =>
    cases ms with
    | nil => exact readValue_object (by rw [readFirstMember]; rfl)
    | cons m ms =>
      obtain ⟨name, v⟩ := m
      obtain ⟨fits, fitOthers⟩ := List.forall_mem_cons.mp fitEach
      simp only [Value.written, writtenString, List.cons_append, List.append_assoc, List.length_cons,
        List.length_append, List.nil_append] at enough ⊢
      have enoughFirst : 3 * v.written.length ≤ steps := by omega
      have enoughOthers : 3 * (writtenMembers ms).length ≤ steps := by omega
      have read := readValue_written v fits enoughFirst (behind_writtenMembers ms rest)
      have readOthers := readMembers_written ms rest fitOthers enoughOthers
      refine readValue_object ?_
      rw [readFirstMember]
      exact readMember_cons read readOthers

theorem readItems_written (vs : List Value) (rest : List Char) {steps depth : Nat} (fits : ∀ v ∈ vs, v.Fits depth)
    (enough : 3 * (writtenItems vs).length ≤ steps) :
    readItems steps depth (writtenItems vs ++ rest) = .ok (orderedItems vs, rest) := by
  cases vs with
  | nil =>
    obtain ⟨steps, rfl⟩ := Nat.exists_eq_add_of_le' (show 1 ≤ steps from Nat.le_trans (by decide) enough)
    rw [readItems]
    rfl
  | cons v vs =>
    rw [writtenItems, List.cons_append, List.length_cons, List.length_append] at enough
    obtain ⟨steps, rfl⟩ := Nat.exists_eq_add_of_le' (show 1 ≤ steps by omega)
    obtain ⟨fits, fitOthers⟩ := List.forall_mem_cons.mp fits
    obtain ⟨c, t, written, opens⟩ := Value.written_head fits
    have enoughFirst : 3 * v.written.length ≤ steps := by omega
    have enoughOthers : 3 * (writtenItems vs).length ≤ steps := by omega
    have read := readValue_written v fits enoughFirst (behind_writtenItems vs rest)
    have readOthers := readItems_written vs rest fitOthers enoughOthers
    rw [writtenItems, List.cons_append, List.cons_append, List.append_assoc]
    rw [written, List.cons_append] at read ⊢
    exact readItems_cons opens read readOthers

theorem readMembers_written (ms : List (String × Value)) (rest : List Char) {steps depth : Nat}
    (fits : ∀ m ∈ ms, m.2.Fits depth) (enough : 3 * (writtenMembers ms).length ≤ steps) :
    readMembers steps depth (writtenMembers ms ++ rest) = .ok (orderedMembers ms, rest) := by
  cases ms with
  | nil =>
    obtain ⟨steps, rfl⟩ := Nat.exists_eq_add_of_le' (show 1 ≤ steps from Nat.le_trans (by decide) enough)
    rw [readMembers]
    rfl
  | cons m ms =>
    obtain ⟨name, v⟩ := m
    obtain ⟨fits, fitOthers⟩ := List.forall_mem_cons.mp fits
    simp only [writtenMembers, writtenString, List.cons_append, List.append_assoc, List.length_cons,
      List.length_append, List.nil_append] at enough ⊢
    obtain ⟨steps, rfl⟩ := Nat.exists_eq_add_of_le' (show 2 ≤ steps by omega)
    have enoughFirst : 3 * v.written.length ≤ steps := by omega
    have enoughOthers : 3 * (writtenMembers ms).length ≤ steps := by omega
    have read := readValue_written v fits enoughFirst (behind_writtenMembers ms rest)
    have readOthers := readMembers_written ms rest fitOthers enoughOthers
    rw [readMembers]
    exact readMember_cons read readOthers

end

theorem Value.read_write {v : Value} (fits : v.Fits maxDepth) : Value.read v.write = .ok v.ordered := by
  have enough : 3 * v.written.length ≤ stepsFor v.written := Nat.le_add_right _ _
  have read := readValue_written v fits enough .ended
  rw [List.append_nil] at read
  simp only [Value.read, Value.write, String.toList_ofList, read, Except.bind]
  rfl

end EntityTypings.Json
