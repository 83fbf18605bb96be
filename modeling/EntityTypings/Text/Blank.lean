/-!
# Blank space

The characters with the Unicode property `White_Space`, and the words that stand between them.
`words_blank_free` says that words hold no blank; `collapse` puts one space between words.
-/

namespace EntityTypings.Text

/-- The characters with the property `White_Space`. -/
def isBlank (c : Char) : Bool :=
  let n := c.toNat
  (0x09 ≤ n && n ≤ 0x0D) || n == 0x20 || n == 0x85 || n == 0xA0 || n == 0x1680 ||
    (0x2000 ≤ n && n ≤ 0x200A) || n == 0x2028 || n == 0x2029 || n == 0x202F || n == 0x205F ||
    n == 0x3000

def trimStart (s : List Char) : List Char := s.dropWhile isBlank

/-- The maximal runs without a blank. -/
def words : List Char → List (List Char)
  | [] => []
  | c :: s =>
    if isBlank c then words s
    else if s.head?.all isBlank then [c] :: words s
    else (words s).modifyHead (c :: ·)

/-- The words of a text with one space between them. -/
def collapse (s : String) : String :=
  String.ofList ([' '].intercalate (words s.toList))

theorem words_blank_free (s : List Char) : ∀ w ∈ words s, ∀ c ∈ w, isBlank c = false := by
  induction s with
  | nil => simp [words]
  | cons c s ih =>
    unfold words
    split
    · exact ih
    · next hc =>
      split
      · intro w hw d hd
        rcases List.mem_cons.mp hw with rfl | hw
        · simp only [List.mem_singleton] at hd
          subst hd
          simpa using hc
        · exact ih w hw d hd
      · cases hs : words s with
        | nil => simp
        | cons w ws =>
          rw [hs] at ih
          intro x hx d hd
          rcases List.mem_cons.mp hx with rfl | hx
          · rcases List.mem_cons.mp hd with rfl | hd
            · simpa using hc
            · exact ih w List.mem_cons_self d hd
          · exact ih x (List.mem_cons_of_mem _ hx) d hd

example : collapse " a\t b\u2003c\u00a0" = "a b c" := by decide

end EntityTypings.Text
