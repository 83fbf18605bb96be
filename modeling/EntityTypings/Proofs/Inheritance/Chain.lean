import Mathlib.Data.Finset.Card

/-!
# Chains of a partial step

`after? step n a` follows a partial step from `a`. On finitely many elements a chain ends or comes back:
`chain_ends_or_repeats`.
-/

namespace EntityTypings

variable {α : Type} {step : α → Option α} {a b : α} {members : List α}

/-- The element `n` steps on from another, if the chain goes so far. -/
def after? (step : α → Option α) : Nat → α → Option α
  | 0, a => some a
  | n + 1, a => (step a).bind (after? step n)

theorem after?_add (m n : Nat) (a : α) :
    after? step (m + n) a = (after? step m a).bind (after? step n) := by
  induction m generalizing a with
  | zero => simp [after?]
  | succ m ih =>
    rw [show m + 1 + n = (m + n) + 1 by omega, after?, after?]
    cases step a with
    | none => rfl
    | some next => exact ih next

theorem after?_succ (n : Nat) (a : α) : after? step (n + 1) a = (after? step n a).bind step := by
  rw [after?_add]
  congr 1
  funext b
  simp only [after?]
  cases step b <;> rfl

theorem after?_mem {n : Nat} (closed : ∀ x ∈ members, ∀ y, step x = some y → y ∈ members)
    (start : a ∈ members) (reached : after? step n a = some b) : b ∈ members := by
  induction n generalizing b with
  | zero => exact Option.some.inj reached ▸ start
  | succ n ih =>
    rw [after?_succ] at reached
    obtain ⟨before, reached, stepped⟩ := Option.bind_eq_some_iff.mp reached
    exact closed before (ih reached) b stepped

theorem after?_none_of_le {m n : Nat} (le : m ≤ n) (ended : after? step m a = none) :
    after? step n a = none := by
  obtain ⟨more, rfl⟩ := Nat.exists_eq_add_of_le le
  rw [after?_add, ended]
  rfl

/-- A chain that is over has a last element. -/
theorem exists_last {n : Nat} (ended : after? step n a = none) :
    ∃ k < n, ∃ x, after? step k a = some x ∧ step x = none := by
  induction n with
  | zero => cases ended
  | succ n ih =>
    rw [after?_succ] at ended
    cases reached : after? step n a with
    | none =>
      obtain ⟨k, earlier, last⟩ := ih reached
      exact ⟨k, Nat.lt_succ_of_lt earlier, last⟩
    | some x =>
      rw [reached] at ended
      exact ⟨n, Nat.lt_succ_self n, x, reached, ended⟩

/-- A chain that runs on through more steps than it has elements to choose from meets one twice. -/
theorem exists_repeat (elements : ∀ n ≤ members.length, ∃ x ∈ members, after? step n a = some x) :
    ∃ m n x, m < n ∧ after? step m a = some x ∧ after? step n a = some x := by
  classical
  have more : (members.toFinset.image some).card < (Finset.range (members.length + 1)).card := by
    have images := Finset.card_image_le (s := members.toFinset) (f := some)
    have few := List.toFinset_card_le members
    rw [Finset.card_range]
    omega
  have within : ∀ n ∈ Finset.range (members.length + 1),
      after? step n a ∈ members.toFinset.image some := by
    intro n bound
    obtain ⟨x, member, reached⟩ := elements n (Nat.lt_succ_iff.mp (Finset.mem_range.mp bound))
    rw [reached]
    exact Finset.mem_image_of_mem some (List.mem_toFinset.mpr member)
  obtain ⟨m, first, n, _, different, same⟩ :=
    Finset.exists_ne_map_eq_of_card_lt_of_maps_to more within
  obtain ⟨x, _, reached⟩ := elements m (Nat.lt_succ_iff.mp (Finset.mem_range.mp first))
  rcases Nat.lt_or_gt_of_ne different with earlier | later
  · exact ⟨m, n, x, earlier, reached, same ▸ reached⟩
  · exact ⟨n, m, x, later, same ▸ reached, reached⟩

theorem chain_ends_or_repeats (closed : ∀ x ∈ members, ∀ y, step x = some y → y ∈ members)
    (start : a ∈ members) :
    (∃ n < members.length, ∃ x, after? step n a = some x ∧ step x = none) ∨
      ∃ m n x, m < n ∧ after? step m a = some x ∧ after? step n a = some x := by
  cases stopped : after? step members.length a with
  | none => exact .inl (exists_last stopped)
  | some x =>
    have elements : ∀ n ≤ members.length, ∃ x ∈ members, after? step n a = some x := by
      intro n bound
      cases reached : after? step n a with
      | none =>
        rw [after?_none_of_le bound reached] at stopped
        cases stopped
      | some y => exact ⟨y, after?_mem closed start reached, rfl⟩
    exact .inr (exists_repeat elements)

/-- A chain that comes back goes round for ever. -/
theorem after?_round {period : Nat} (back : after? step period a = some a) (rounds : Nat) :
    after? step (rounds * period) a = some a := by
  induction rounds with
  | zero => rw [Nat.zero_mul, after?]
  | succ rounds ih =>
    rw [Nat.succ_mul, after?_add, ih]
    exact back

theorem never_back_of_ended {n : Nat} {x : α} (reached : after? step n a = some x) (ended : step x = none)
    (k : Nat) : after? step (k + 1) a ≠ some a := by
  intro back
  have stopped : after? step (n + 1) a = none := by
    rw [after?_succ, reached]
    exact ended
  have le : n + 1 ≤ (n + 1) * (k + 1) := Nat.le_mul_of_pos_right _ (Nat.succ_pos k)
  have round := after?_round back (n + 1)
  rw [after?_none_of_le le stopped] at round
  cases round

end EntityTypings
