import EntityTypings.Json.Writer

/-!
# Compact texts hold no controls

`Value.written_visible`: whatever a value's strings hold, no character below the space stands in its compact text.
Numbers consist of digits, a point, the letter `e` and signs.
-/

namespace EntityTypings

/-- The characters that a decimal number is written with. -/
def IsNumeric (c : Char) : Prop := c.isDigit = true ∨ c ∈ ['.', 'e', '+', '-']

namespace Decimal.Layout

variable {c : Char} {digits : List Char} {exponent lead : Int}

theorem numeric_of_mem_digits {n : Nat} (listed : c ∈ Nat.toDigits 10 n) : IsNumeric c :=
  .inl (Nat.isDigit_of_mem_toDigits (by decide) (by decide) listed)

theorem numeric_of_mem_zeros {n : Nat} (listed : c ∈ zeros n) : IsNumeric c := by
  obtain rfl := (List.mem_replicate.mp listed).2
  exact .inl rfl

theorem numeric_of_mem_plain (numeric : ∀ d ∈ digits, IsNumeric d) (listed : c ∈ plain digits exponent lead) :
    IsNumeric c := by
  have point : IsNumeric '.' := .inr (by decide)
  have zero : IsNumeric '0' := .inl rfl
  unfold plain at listed
  split at listed
  · simp only [List.mem_append, List.mem_cons, List.not_mem_nil, or_false] at listed
    rcases listed with (digit | padding) | rfl | rfl
    · exact numeric c digit
    · exact numeric_of_mem_zeros padding
    · exact point
    · exact zero
  · split at listed
    · simp only [List.mem_append, List.mem_cons] at listed
      rcases listed with digit | rfl | digit
      · exact numeric c (List.mem_of_mem_take digit)
      · exact point
      · exact numeric c (List.mem_of_mem_drop digit)
    · simp only [List.cons_append, List.mem_append, List.mem_cons] at listed
      rcases listed with rfl | rfl | padding | digit
      · exact zero
      · exact point
      · exact numeric_of_mem_zeros padding
      · exact numeric c digit

theorem numeric_of_mem_scientific (numeric : ∀ d ∈ digits, IsNumeric d) (listed : c ∈ scientific digits lead) :
    IsNumeric c := by
  unfold scientific at listed
  simp only [List.mem_append, List.mem_cons] at listed
  rcases listed with mantissa | rfl | rfl | digit
  · split at mantissa
    next d e rest =>
      simp only [List.mem_cons] at mantissa
      rcases mantissa with rfl | rfl | rfl | digit
      · exact numeric _ List.mem_cons_self
      · exact .inr (by decide)
      · exact numeric _ (List.mem_cons_of_mem _ List.mem_cons_self)
      · exact numeric c (List.mem_cons_of_mem _ (List.mem_cons_of_mem _ digit))
    · exact numeric c mantissa
  · exact .inr (by decide)
  · split
    · exact .inr (by decide)
    · exact .inr (by decide)
  · exact numeric_of_mem_digits digit

theorem numeric_of_mem_writeDouble {layout : Layout} {bits : Nat} (listed : c ∈ layout.writeDouble bits) :
    IsNumeric c := by
  unfold writeDouble at listed
  rcases List.mem_append.mp listed with sign | number
  · split at sign
    · obtain rfl := List.mem_singleton.mp sign
      exact .inr (by decide)
    · cases sign
  · split at number
    · simp only [List.mem_cons, List.not_mem_nil, or_false] at number
      rcases number with rfl | rfl | rfl
      · exact .inl rfl
      · exact .inr (by decide)
      · exact .inl rfl
    · unfold write at number
      dsimp only at number
      split at number
      · exact numeric_of_mem_plain (fun _ => numeric_of_mem_digits) number
      · exact numeric_of_mem_scientific (fun _ => numeric_of_mem_digits) number

end Decimal.Layout

namespace Json

/-- A character that is no control below the space. -/
def Visible (c : Char) : Prop := 0x20 ≤ c.toNat

instance (c : Char) : Decidable (Visible c) := inferInstanceAs (Decidable (0x20 ≤ c.toNat))

/-- A fixed text is checked character by character, rather than character sets as a whole. -/
theorem forall_visible {s : List Char} (checked : s.all (decide <| Visible ·) = true) : ∀ c ∈ s, Visible c := by
  intro c listed
  exact of_decide_eq_true (List.all_eq_true.mp checked c listed)

theorem visible_of_numeric {c : Char} (numeric : IsNumeric c) : Visible c := by
  rcases numeric with digit | sign
  · obtain ⟨low, _⟩ := Char.isDigit_iff_toNat.mp digit
    exact Nat.le_trans (by decide) low
  · have signs : ∀ d ∈ ['.', 'e', '+', '-'], Visible d := forall_visible rfl
    exact signs c sign

theorem Number.written_visible (n : Number) : ∀ c ∈ n.written, Visible c := by
  intro c listed
  refine visible_of_numeric ?_
  cases n with
  | int n =>
    rcases List.mem_append.mp listed with sign | digit
    · split at sign
      · obtain rfl := List.mem_singleton.mp sign
        exact .inr (by decide)
      · cases sign
    · exact Decimal.Layout.numeric_of_mem_digits digit
  | float x => exact Decimal.Layout.numeric_of_mem_writeDouble listed

theorem digitChar_visible {n : Nat} (bound : n < 16) : Visible (Nat.digitChar n) :=
  (by decide : ∀ n < 16, Visible (Nat.digitChar n)) n bound

theorem writtenChar_visible (d : Char) : ∀ c ∈ writtenChar d, Visible c := by
  unfold writtenChar
  iterate 7
    split
    · exact forall_visible rfl
  split
  next control =>
    have high : d.toNat / 16 < 16 := by omega
    have low : d.toNat % 16 < 16 := Nat.mod_lt _ (by decide)
    simp only [List.forall_mem_cons, List.not_mem_nil, false_implies, implies_true, and_true]
    exact ⟨by decide, by decide, by decide, by decide, digitChar_visible high, digitChar_visible low⟩
  next visible =>
    intro c listed
    obtain rfl := List.mem_singleton.mp listed
    exact Nat.not_lt.mp visible

theorem writtenString_visible (s : String) : ∀ c ∈ writtenString s, Visible c := by
  intro c listed
  have quote : Visible '"' := by decide
  simp only [writtenString, List.cons_append, List.mem_cons, List.mem_append, List.mem_flatMap,
    List.not_mem_nil, or_false] at listed
  rcases listed with rfl | ⟨d, _, written⟩ | rfl
  · exact quote
  · exact writtenChar_visible d c written
  · exact quote

mutual

/-- No control stands in the compact text of a value. -/
theorem Value.written_visible (v : Value) : ∀ c ∈ v.written, Visible c := by
  cases v with
  | null => exact forall_visible rfl
  | bool b => cases b <;> exact forall_visible rfl
  | num n => exact n.written_visible
  | str s => exact writtenString_visible s
  | arr items =>
    cases items with
    | nil => exact forall_visible rfl
    | cons v vs =>
      unfold Value.written
      simp only [List.cons_append, List.forall_mem_cons, List.forall_mem_append]
      exact ⟨by decide, v.written_visible, writtenItems_visible vs⟩
  | obj members =>
    cases members with
    | nil => exact forall_visible rfl
    | cons m ms =>
      unfold Value.written
      simp only [List.cons_append, List.append_assoc, List.forall_mem_cons, List.forall_mem_append]
      exact ⟨by decide, writtenString_visible m.1, by decide, m.2.written_visible, writtenMembers_visible ms⟩

theorem writtenItems_visible (vs : List Value) : ∀ c ∈ writtenItems vs, Visible c := by
  cases vs with
  | nil => exact forall_visible rfl
  | cons v vs =>
    unfold writtenItems
    simp only [List.cons_append, List.forall_mem_cons, List.forall_mem_append]
    exact ⟨by decide, v.written_visible, writtenItems_visible vs⟩

theorem writtenMembers_visible (ms : List (String × Value)) : ∀ c ∈ writtenMembers ms, Visible c := by
  cases ms with
  | nil => exact forall_visible rfl
  | cons m ms =>
    unfold writtenMembers
    simp only [List.cons_append, List.append_assoc, List.forall_mem_cons, List.forall_mem_append]
    exact ⟨by decide, writtenString_visible m.1, by decide, m.2.written_visible, writtenMembers_visible ms⟩

end

end Json

end EntityTypings
