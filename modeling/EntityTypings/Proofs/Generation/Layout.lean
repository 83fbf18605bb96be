import EntityTypings.Proofs.Generation.Outcome

/-!
# The layout of code

Whether a blank line is due in front of a block is read off the end of the code so far. Where every block
ends with exactly one line break this comes down to one more line break between two blocks:
`foldl_appendBlock_joined`. So each block stands at the start of the code or behind a blank line, `mem_joined`.
-/

namespace EntityTypings

variable {code s : String} {blocks : List String}

/-! ### Ends of texts -/

/-- A text ends with a visible character and exactly one line break. -/
def EndsLine (s : String) : Prop := ∃ body c, s.toList = body ++ [c, '\n'] ∧ c ≠ '\n'

theorem EndsLine.append (s : String) {t : String} (ended : EndsLine t) : EndsLine (s ++ t) := by
  obtain ⟨body, c, split, visible⟩ := ended
  refine ⟨s.toList ++ body, c, ?_, visible⟩
  rw [String.toList_append, split, List.append_assoc]

theorem endsBlank_iff : endsBlank s = true ↔ ∃ body, s.toList = body ++ ['\n', '\n'] := by
  rw [endsBlank, List.isSuffixOf_iff_suffix]
  exact ⟨fun ⟨body, split⟩ => ⟨body, split.symm⟩, fun ⟨body, split⟩ => ⟨body, split.symm⟩⟩

theorem endsBlank_append (s : String) {t : String} (blank : endsBlank t = true) :
    endsBlank (s ++ t) = true := by
  obtain ⟨body, split⟩ := endsBlank_iff.mp blank
  refine endsBlank_iff.mpr ⟨s.toList ++ body, ?_⟩
  rw [String.toList_append, split, List.append_assoc]

theorem EndsLine.endsBlank_of_break (ended : EndsLine s) : endsBlank (s ++ "\n") = true := by
  obtain ⟨body, c, split, _⟩ := ended
  refine endsBlank_iff.mpr ⟨body ++ [c], ?_⟩
  rw [String.toList_append, split]
  simp

theorem separator_eq_empty : separator code = "" ↔ code = "" ∨ endsBlank code = true := by
  unfold separator
  split <;> simp_all

theorem EndsLine.separator_eq (ended : EndsLine s) : separator s = "\n" := by
  obtain ⟨body, c, split, visible⟩ := ended
  have filled : s ≠ "" := by
    rintro rfl
    simp at split
  have open_line : endsBlank s = false := by
    apply Bool.eq_false_iff.mpr
    intro blank
    obtain ⟨other, same⟩ := endsBlank_iff.mp blank
    rw [split] at same
    exact visible (List.cons.inj (List.append_inj_right' same rfl)).1
  simp [separator, filled, open_line]

/-! ### Joined blocks -/

theorem EndsLine.intercalate (ended : ∀ b ∈ blocks, EndsLine b) (some_block : blocks ≠ []) :
    EndsLine ("\n".intercalate blocks) := by
  induction blocks with
  | nil => exact absurd rfl some_block
  | cons b rest ih =>
    obtain ⟨first, ended⟩ := List.forall_mem_cons.mp ended
    by_cases last : rest = []
    · subst last
      rwa [String.intercalate_singleton]
    · rw [String.intercalate_cons_of_ne_nil last]
      exact (ih ended last).append _

theorem appendBlock_joined (ended : ∀ b ∈ blocks, EndsLine b) (block : String) :
    appendBlock ("\n".intercalate blocks) block = "\n".intercalate (blocks ++ [block]) := by
  by_cases first : blocks = []
  · subst first
    rw [String.intercalate_nil, List.nil_append, String.intercalate_singleton, appendBlock,
      separator_eq_empty.mpr (.inl rfl), String.append_empty, String.empty_append]
  · rw [appendBlock, (EndsLine.intercalate ended first).separator_eq,
      String.intercalate_append_of_ne_nil first (List.cons_ne_nil _ _), String.intercalate_singleton]

theorem foldl_appendBlock_line (line : EndsLine code) (ended : ∀ b ∈ blocks, EndsLine b) :
    blocks.foldl appendBlock code = "\n".intercalate (code :: blocks) := by
  induction blocks generalizing code with
  | nil => rw [List.foldl_nil, String.intercalate_singleton]
  | cons b rest ih =>
    obtain ⟨first, ended⟩ := List.forall_mem_cons.mp ended
    rw [List.foldl_cons, appendBlock, line.separator_eq, ih (first.append _) ended,
      String.intercalate_cons_append, String.intercalate_cons_cons]

/-- Blocks that are appended one by one stand joined by single line breaks. -/
theorem foldl_appendBlock_joined (start : separator code = "") (ended : ∀ b ∈ blocks, EndsLine b) :
    blocks.foldl appendBlock code = code ++ "\n".intercalate blocks := by
  cases blocks with
  | nil => rw [List.foldl_nil, String.intercalate_nil, String.append_empty]
  | cons b rest =>
    obtain ⟨first, ended⟩ := List.forall_mem_cons.mp ended
    rw [List.foldl_cons, appendBlock, start, String.append_empty,
      foldl_appendBlock_line (first.append _) ended, String.intercalate_cons_append]

/-- A joined block stands at the start of the code or behind a blank line. -/
theorem mem_joined {block : String} (start : separator code = "") (ended : ∀ b ∈ blocks, EndsLine b)
    (listed : block ∈ blocks) : ∃ before after,
      code ++ "\n".intercalate blocks = before ++ block ++ after ∧ separator before = "" := by
  obtain ⟨earlier, later, rfl⟩ := List.append_of_mem listed
  have from_block : ∃ after, "\n".intercalate (block :: later) = block ++ after := by
    by_cases last : later = []
    · exact ⟨"", by rw [last, String.intercalate_singleton, String.append_empty]⟩
    · exact ⟨"\n" ++ "\n".intercalate later, by
        rw [String.intercalate_cons_of_ne_nil last, String.append_assoc]⟩
  obtain ⟨after, tail⟩ := from_block
  by_cases first : earlier = []
  · subst first
    exact ⟨code, after, by rw [List.nil_append, tail, String.append_assoc], start⟩
  · have line : EndsLine ("\n".intercalate earlier) :=
      EndsLine.intercalate (fun b member => ended b (List.mem_append_left _ member)) first
    refine ⟨code ++ ("\n".intercalate earlier ++ "\n"), after, ?_, ?_⟩
    · rw [String.intercalate_append_of_ne_nil first (List.cons_ne_nil _ _), tail]
      simp only [String.append_assoc]
    · exact separator_eq_empty.mpr (.inr (endsBlank_append _ line.endsBlank_of_break))

end EntityTypings
