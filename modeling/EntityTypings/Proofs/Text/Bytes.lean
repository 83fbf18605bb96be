import EntityTypings.NameTable
import Mathlib.Data.List.Basic

/-!
# The order of bytes

Texts are compared character by character. `bytes_lt_iff` shows that this is the order of their bytes in UTF-8.
-/

namespace EntityTypings.Text

/-- A text in UTF-8. -/
def bytes (s : String) : List UInt8 := s.toUTF8.data.toList

theorem bytes_eq (s : String) : bytes s = s.toList.flatMap String.utf8EncodeChar := by
  rw [bytes, String.toUTF8_eq_toByteArray, ← String.utf8Encode_toList]
  simp [List.utf8Encode]

/-- The encodings of two characters differ before either of them ends, and differ as the characters do. -/
theorem utf8EncodeChar_lt {c d : Char} (less : c < d) (u v : List UInt8) :
    String.utf8EncodeChar c ++ u < String.utf8EncodeChar d ++ v := by
  have codes : c.val.toNat < d.val.toNat := less
  have limit : d.val.toNat < 0x110000 := by
    have valid := d.valid
    simp only [UInt32.isValidChar, Nat.isValidChar] at valid
    omega
  have byte {a b : Nat} (u v : List UInt8) (small : a < 256) (small' : b < 256) :
      UInt8.ofNat a :: u < UInt8.ofNat b :: v ↔ a < b ∨ a = b ∧ u < v := by
    rw [List.cons_lt_cons_iff, UInt8.lt_iff_toNat_lt, ← UInt8.toNat_inj, UInt8.toNat_ofNat', UInt8.toNat_ofNat',
      Nat.mod_eq_of_lt small, Nat.mod_eq_of_lt small']
  -- the bytes are digits to the base 64, taken from above
  have second (n : Nat) : n / 4096 = n / 64 / 64 := by omega
  have third (n : Nat) : n / 262144 = n / 64 / 64 / 64 := by omega
  simp only [String.utf8EncodeChar, second, third]
  generalize c.val.toNat = m at codes
  generalize d.val.toNat = n at codes limit
  repeat' split
  all_goals
    simp (disch := omega) only [List.cons_append, List.nil_append, byte]
    omega

theorem utf8_lt {s t : List Char} (less : s < t) :
    s.flatMap String.utf8EncodeChar < t.flatMap String.utf8EncodeChar := by
  induction s generalizing t with
  | nil =>
    cases t with
    | nil => exact absurd less (List.lt_irrefl [])
    | cons d t =>
      obtain ⟨b, rest, first⟩ := List.exists_cons_of_ne_nil (String.utf8EncodeChar_ne_nil (c := d))
      rw [List.flatMap_nil, List.flatMap_cons, first]
      exact List.nil_lt_cons b _
  | cons c s ih =>
    cases t with
    | nil => exact absurd less (List.not_lt_nil _)
    | cons d t =>
      rw [List.flatMap_cons, List.flatMap_cons]
      rcases List.cons_lt_cons_iff.mp less with char | ⟨rfl, later⟩
      · exact utf8EncodeChar_lt char _ _
      · exact List.append_left_lt (ih later)

theorem bytes_lt {s t : String} (less : s < t) : bytes s < bytes t := by
  rw [bytes_eq, bytes_eq]
  exact utf8_lt (String.lt_iff.mp less)

theorem bytes_lt_iff {s t : String} : bytes s < bytes t ↔ s < t := by
  refine ⟨fun less => ?_, bytes_lt⟩
  by_cases same : s = t
  · subst same
    exact absurd less (List.lt_irrefl _)
  · by_cases other : s < t
    · exact other
    · have greater := bytes_lt (lt_of_not_lt_of_ne other same)
      exact absurd (List.lt_trans less greater) (List.lt_irrefl _)

end EntityTypings.Text
