import EntityTypings.Proofs.Json.Parts
import EntityTypings.Proofs.Json.ReadBack
import EntityTypings.Proofs.NameTable

/-!
# Values that were read

Reading gives objects with their members in order, nested at most as deep as reading goes (`Value.settled_of_read`).
Such a value is what is read back from its text, as long as its numbers are integers (`Settled.ordered`,
`Settled.fits`).
-/

namespace EntityTypings.Json

/-- A value as it is read: objects list their members in order, and lists and objects nest at most `depth` deep. -/
inductive Value.Settled : Nat → Value → Prop where
  | null {depth : Nat} : Settled depth .null
  | bool {depth : Nat} (b : Bool) : Settled depth (.bool b)
  | num {depth : Nat} (n : Number) : Settled depth (.num n)
  | str {depth : Nat} (s : String) : Settled depth (.str s)
  | arr {depth : Nat} {vs : List Value} (each : ∀ v ∈ vs, Settled depth v) : Settled (depth + 1) (.arr vs)
  | obj {depth : Nat} {ms : List (String × Value)} (each : ∀ m ∈ ms, Settled depth m.2)
    (ascending : Ascending ms) : Settled (depth + 1) (.obj ms)

mutual

/-- The numbers in a value. -/
def Value.numbers : Value → List Number
  | .null => []
  | .bool _ => []
  | .num n => [n]
  | .str _ => []
  | .arr vs => numbersOfItems vs
  | .obj ms => numbersOfMembers ms

def numbersOfItems : List Value → List Number
  | [] => []
  | v :: vs => v.numbers ++ numbersOfItems vs

def numbersOfMembers : List (String × Value) → List Number
  | [] => []
  | (_, v) :: ms => v.numbers ++ numbersOfMembers ms

end

theorem numbersOfItems_eq_flatMap (vs : List Value) : numbersOfItems vs = vs.flatMap Value.numbers := by
  induction vs with
  | nil => rfl
  | cons v vs ih => rw [numbersOfItems, ih, List.flatMap_cons]

theorem numbersOfMembers_eq_flatMap (ms : List (String × Value)) :
    numbersOfMembers ms = ms.flatMap fun m => m.2.numbers := by
  induction ms with
  | nil => rfl
  | cons m ms ih => rw [numbersOfMembers, ih, List.flatMap_cons]

namespace Value.Settled

variable {depth : Nat} {v : Value}

theorem ordered (settled : v.Settled depth) : v.ordered = v := by
  induction settled with
  | null => rfl
  | bool b => rfl
  | num n => rfl
  | str s => rfl
  | arr each ih =>
    rw [Value.ordered, orderedItems_eq_map, List.map_congr_left ih, List.map_id']
  | @obj _ ms each ascending ih =>
    have same : (ms.map fun m => (m.1, m.2.ordered)) = ms := by
      calc ms.map (fun m => (m.1, m.2.ordered))
        _ = ms.map id := List.map_congr_left fun m listed => Prod.ext rfl (ih m listed)
        _ = ms := List.map_id ms
    rw [Value.ordered, orderedMembers_eq_map, same, ofPairs, NameTable.entries_ofList ascending]

theorem fits (settled : v.Settled depth) (integers : ∀ n ∈ v.numbers, n.IsInteger) : v.Fits depth := by
  induction settled with
  | null => exact .null
  | bool b => exact .bool b
  | num n => exact .num (integers n List.mem_cons_self)
  | str s => exact .str s
  | arr each ih =>
    rw [numbers, numbersOfItems_eq_flatMap, List.forall_mem_flatMap] at integers
    exact .arr fun v listed => ih v listed (integers v listed)
  | obj each ascending ih =>
    rw [numbers, numbersOfMembers_eq_flatMap, List.forall_mem_flatMap] at integers
    exact .obj fun m listed => ih m listed (integers m listed)

theorem ofPairs {ms : List (String × Value)} (each : ∀ m ∈ ms, m.2.Settled depth) :
    (Value.ofPairs ms).Settled (depth + 1) :=
  .obj (fun m listed => each m (NameTable.mem_ofList listed)) (NameTable.ofList ms).ascending

end Value.Settled

-- By induction on the steps. Only an object is put together from what was read, and that puts it in order.
mutual

theorem settled_of_readValue (steps : Nat) {depth : Nat} {s rest : List Char} {v : Value}
    (read : readValue steps depth s = .ok (v, rest)) : v.Settled depth := by
  cases steps with
  | zero =>
    rw [readValue] at read
    cases read
  | succ steps =>
    rw [readValue] at read
    split at read
    · cases read
    split at read
    · obtain ⟨_, _, read⟩ := bind_eq_ok.mp read
      cases read
      exact .null
    split at read
    · obtain ⟨_, _, read⟩ := bind_eq_ok.mp read
      cases read
      exact .bool true
    split at read
    · obtain ⟨_, _, read⟩ := bind_eq_ok.mp read
      cases read
      exact .bool false
    split at read
    · obtain ⟨p, _, read⟩ := bind_eq_ok.mp read
      cases read
      exact .str p.1
    split at read
    · obtain ⟨p, _, read⟩ := bind_eq_ok.mp read
      cases read
      exact .num p.1
    split at read
    · split at read
      · cases read
      · obtain ⟨p, items, read⟩ := bind_eq_ok.mp read
        cases read
        exact .arr (settled_of_readFirstItem steps items)
    split at read
    · split at read
      · cases read
      · obtain ⟨p, members, read⟩ := bind_eq_ok.mp read
        cases read
        exact .ofPairs (settled_of_readFirstMember steps members)
    · cases read

theorem settled_of_readFirstItem (steps : Nat) {depth : Nat} {s rest : List Char} {vs : List Value}
    (read : readFirstItem steps depth s = .ok (vs, rest)) : ∀ v ∈ vs, v.Settled depth := by
  cases steps with
  | zero =>
    rw [readFirstItem] at read
    cases read
  | succ steps =>
    rw [readFirstItem] at read
    split at read
    · cases read
    · cases read
      exact List.forall_mem_nil _
    · obtain ⟨p, value, read⟩ := bind_eq_ok.mp read
      obtain ⟨q, others, read⟩ := bind_eq_ok.mp read
      cases read
      exact List.forall_mem_cons.mpr ⟨settled_of_readValue steps value, settled_of_readItems steps others⟩

theorem settled_of_readItems (steps : Nat) {depth : Nat} {s rest : List Char} {vs : List Value}
    (read : readItems steps depth s = .ok (vs, rest)) : ∀ v ∈ vs, v.Settled depth := by
  cases steps with
  | zero =>
    rw [readItems] at read
    cases read
  | succ steps =>
    rw [readItems] at read
    split at read
    · cases read
    · cases read
      exact List.forall_mem_nil _
    · split at read
      · cases read
      · cases read
      · obtain ⟨p, value, read⟩ := bind_eq_ok.mp read
        obtain ⟨q, others, read⟩ := bind_eq_ok.mp read
        cases read
        exact List.forall_mem_cons.mpr ⟨settled_of_readValue steps value, settled_of_readItems steps others⟩
    · cases read

theorem settled_of_readFirstMember (steps : Nat) {depth : Nat} {s rest : List Char} {ms : List (String × Value)}
    (read : readFirstMember steps depth s = .ok (ms, rest)) : ∀ m ∈ ms, m.2.Settled depth := by
  cases steps with
  | zero =>
    rw [readFirstMember] at read
    cases read
  | succ steps =>
    rw [readFirstMember] at read
    split at read
    · cases read
    · cases read
      exact List.forall_mem_nil _
    · exact settled_of_readMember steps read
    · cases read

theorem settled_of_readMembers (steps : Nat) {depth : Nat} {s rest : List Char} {ms : List (String × Value)}
    (read : readMembers steps depth s = .ok (ms, rest)) : ∀ m ∈ ms, m.2.Settled depth := by
  cases steps with
  | zero =>
    rw [readMembers] at read
    cases read
  | succ steps =>
    rw [readMembers] at read
    split at read
    · cases read
    · cases read
      exact List.forall_mem_nil _
    · split at read
      · cases read
      · cases read
      · exact settled_of_readMember steps read
      · cases read
    · cases read

theorem settled_of_readMember (steps : Nat) {depth : Nat} {s rest : List Char} {ms : List (String × Value)}
    (read : readMember steps depth s = .ok (ms, rest)) : ∀ m ∈ ms, m.2.Settled depth := by
  cases steps with
  | zero =>
    rw [readMember] at read
    cases read
  | succ steps =>
    rw [readMember] at read
    obtain ⟨name, _, read⟩ := bind_eq_ok.mp read
    obtain ⟨_, _, read⟩ := bind_eq_ok.mp read
    obtain ⟨p, value, read⟩ := bind_eq_ok.mp read
    obtain ⟨q, others, read⟩ := bind_eq_ok.mp read
    cases read
    exact List.forall_mem_cons.mpr ⟨settled_of_readValue steps value, settled_of_readMembers steps others⟩

end

theorem eq_of_expectEnd {α : Type} {a b : α} {rest : List Char} (ended : expectEnd a rest = .ok b) : a = b := by
  unfold expectEnd at ended
  split at ended
  · exact Except.ok.inj ended
  · cases ended

theorem Value.settled_of_read {text : String} {v : Value} (read : Value.read text = .ok v) : v.Settled maxDepth := by
  obtain ⟨p, whole, ended⟩ := bind_eq_ok.mp (mapError_eq_ok.mp read)
  have same : p.1 = v := eq_of_expectEnd ended
  exact same ▸ settled_of_readValue _ whole

end EntityTypings.Json
