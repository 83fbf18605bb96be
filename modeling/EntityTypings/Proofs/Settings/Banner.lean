import EntityTypings.Proofs.Generation.Layout
import EntityTypings.Proofs.TypeScript.Literals
import EntityTypings.Settings.Basic

/-!
# What a banner puts in front of code

TypeScript ends a line comment at any of four line terminators. A banner is lines of comment and one blank line exactly
if no line of the product or the version but the first leaves the comment: `Banner.render_comments_iff`. A product
with a line break in it puts code in front of the declarations, `broken_product_uncommented`.
-/

namespace EntityTypings

namespace TypeScript

/-- The lines of a text. A carriage return and the line feed behind it end one line together. -/
def splitLines : List Char → List (List Char)
  | [] => [[]]
  | '\r' :: '\n' :: s => [] :: splitLines s
  | c :: s => if isLineTerminator c then [] :: splitLines s else (splitLines s).modifyHead (c :: ·)

/-- The lines of a text that a line feed ends. -/
def endedLines (s : List Char) : List (List Char) := (splitLines (s ++ ['\n'])).dropLast

/-- A line of nothing but a comment. -/
def IsCommentLine (line : List Char) : Prop := ['/', '/'] <+: line

/-- A text puts lines of comment and one blank line in front of any code. -/
def CommentsAhead (text : String) : Prop :=
  ∃ comments : List (List Char), (∀ line ∈ comments, IsCommentLine line) ∧
    ∀ code, splitLines (text.toList ++ code) = comments ++ [] :: splitLines code

/-- A text that may stand in a line comment: each line of it but the first is a comment of its own. -/
def StaysInComment (text : String) : Prop := ∀ line ∈ (endedLines text.toList).tail, IsCommentLine line

instance (line : List Char) : Decidable (IsCommentLine line) := inferInstanceAs (Decidable (_ <+: _))

instance (text : String) : Decidable (StaysInComment text) := List.decidableBAll _ _

example : splitLines "a\r\nb\rc\u2028\n".toList = ["a".toList, "b".toList, "c".toList, [], []] := by decide

/-! ### Lines of texts -/

theorem splitLines_ne_nil (s : List Char) : splitLines s ≠ [] := by
  induction s using splitLines.induct with
  | case1 => exact List.cons_ne_nil _ _
  | case2 s ih => exact List.cons_ne_nil _ _
  | case3 c s other ended ih =>
    rw [splitLines, if_pos ended]
    · exact List.cons_ne_nil _ _
    · exact other
  | case4 c s other going ih =>
    rw [splitLines, if_neg going]
    · simpa using ih
    · exact other

theorem exists_endedLines (s : List Char) :
    ∃ ended, ended ≠ [] ∧ ∀ t, splitLines (s ++ '\n' :: t) = ended ++ splitLines t := by
  induction s using splitLines.induct with
  | case1 => exact ⟨[[]], List.cons_ne_nil _ _, fun _ => rfl⟩
  | case2 s ih =>
    obtain ⟨ended, _, split⟩ := ih
    exact ⟨[] :: ended, List.cons_ne_nil _ _, fun t => congrArg ([] :: ·) (split t)⟩
  | case3 c s other ends ih =>
    by_cases returned : c = '\r' ∧ s = []
    · -- the line feed belongs to the carriage return in front of it
      obtain ⟨rfl, rfl⟩ := returned
      exact ⟨[[]], List.cons_ne_nil _ _, fun _ => rfl⟩
    · obtain ⟨ended, _, split⟩ := ih
      refine ⟨[] :: ended, List.cons_ne_nil _ _, fun t => ?_⟩
      rw [List.cons_append, splitLines, if_pos ends, split, List.cons_append]
      rintro after rfl same
      cases s with
      | nil => exact returned ⟨rfl, rfl⟩
      | cons d s => exact other s rfl (congrArg (· :: s) (List.cons.inj same).1)
  | case4 c s other goes ih =>
    obtain ⟨ended, filled, split⟩ := ih
    refine ⟨ended.modifyHead (c :: ·), by simpa using filled, fun t => ?_⟩
    rw [List.cons_append, splitLines, if_neg goes, split]
    · cases ended with
      | nil => exact absurd rfl filled
      | cons line rest => rfl
    · rintro _ rfl _
      exact goes rfl

theorem endedLines_eq {s : List Char} {ended : List (List Char)}
    (split : ∀ t, splitLines (s ++ '\n' :: t) = ended ++ splitLines t) : endedLines s = ended := by
  rw [endedLines, split []]
  exact List.dropLast_concat

/-- The lines that a line feed ends stand in front of the lines behind it. -/
theorem splitLines_break (s t : List Char) : splitLines (s ++ '\n' :: t) = endedLines s ++ splitLines t := by
  obtain ⟨ended, _, split⟩ := exists_endedLines s
  rw [endedLines_eq split, split]

theorem endedLines_ne_nil (s : List Char) : endedLines s ≠ [] := by
  obtain ⟨ended, filled, split⟩ := exists_endedLines s
  rwa [endedLines_eq split]

/-- A text on one line makes the first line of what follows longer. -/
theorem splitLines_unbroken {u : List Char} (unbroken : ∀ c ∈ u, isLineTerminator c = false) (s : List Char) :
    splitLines (u ++ s) = (splitLines s).modifyHead (u ++ ·) := by
  obtain ⟨line, rest, split⟩ := List.exists_cons_of_ne_nil (splitLines_ne_nil s)
  induction u with
  | nil => rw [List.nil_append, split, List.modifyHead_cons, List.nil_append]
  | cons c u ih =>
    obtain ⟨first, unbroken⟩ := List.forall_mem_cons.mp unbroken
    rw [List.cons_append, splitLines, if_neg, ih unbroken, split]
    · rfl
    · simp [first]
    · rintro _ rfl _
      cases first

theorem endedLines_unbroken {u : List Char} (unbroken : ∀ c ∈ u, isLineTerminator c = false) (s : List Char) :
    endedLines (u ++ s) = (endedLines s).modifyHead (u ++ ·) := by
  refine endedLines_eq fun t => ?_
  obtain ⟨line, rest, ended⟩ := List.exists_cons_of_ne_nil (endedLines_ne_nil s)
  rw [List.append_assoc, splitLines_unbroken unbroken, splitLines_break, ended]
  rfl

theorem staysInComment_of_unbroken {text : String} (unbroken : ∀ c ∈ text.toList, isLineTerminator c = false) :
    StaysInComment text := by
  have single : endedLines text.toList = [text.toList] := by
    have whole := endedLines_unbroken unbroken []
    rwa [List.append_nil, show endedLines [] = [[]] from rfl, List.modifyHead_cons, List.append_nil] at whole
  rw [StaysInComment, single]
  exact fun _ listed => absurd listed List.not_mem_nil

/-- Behind the start of a comment a text is comment exactly if it stays in it. -/
theorem commentLines_iff {mark : String} (marked : IsCommentLine mark.toList)
    (unbroken : ∀ c ∈ mark.toList, isLineTerminator c = false) (text : String) :
    (∀ line ∈ endedLines (mark ++ text).toList, IsCommentLine line) ↔ StaysInComment text := by
  obtain ⟨first, rest, ended⟩ := List.exists_cons_of_ne_nil (endedLines_ne_nil text.toList)
  rw [String.toList_append, endedLines_unbroken unbroken, StaysInComment, ended, List.modifyHead_cons,
    List.forall_mem_cons, List.tail_cons]
  exact and_iff_right (marked.trans (List.prefix_append _ _))

/-! ### Blocks of lines -/

theorem splitLines_block (lines : List String) (code : List Char) :
    splitLines ((String.join (lines.map (· ++ "\n")) ++ "\n").toList ++ code) =
      lines.flatMap (fun line => endedLines line.toList) ++ [] :: splitLines code := by
  induction lines with
  | nil => rfl
  | cons line rest ih =>
    rw [String.toList_append, List.append_assoc] at ih
    have chars : (String.join ((line :: rest).map (· ++ "\n")) ++ "\n").toList ++ code =
        line.toList ++ '\n' :: ((String.join (rest.map (· ++ "\n"))).toList ++ ("\n".toList ++ code)) := by
      simp [String.join_cons]
    rw [chars, splitLines_break, ih, List.flatMap_cons, List.append_assoc]

/-- Lines and a blank one are comments ahead of code exactly if all of them are comments. -/
theorem commentsAhead_block (lines : List String) :
    CommentsAhead (String.join (lines.map (· ++ "\n")) ++ "\n") ↔
      ∀ line ∈ lines, ∀ part ∈ endedLines line.toList, IsCommentLine part := by
  have blocks : (∀ part ∈ lines.flatMap (fun line => endedLines line.toList), IsCommentLine part) ↔
      ∀ line ∈ lines, ∀ part ∈ endedLines line.toList, IsCommentLine part := by
    simp only [List.mem_flatMap, forall_exists_index, and_imp]
    exact ⟨fun all line listed part => all part line listed, fun all part line listed => all line listed part⟩
  rw [← blocks]
  constructor
  · rintro ⟨comments, marked, split⟩
    have same := (splitLines_block lines []).symm.trans (split [])
    rwa [List.append_cancel_right same]
  · intro marked
    exact ⟨_, marked, splitLines_block lines⟩

end TypeScript

open TypeScript

/-! ### Timestamps -/

/-- A text that no line terminator breaks. -/
def Unbroken (s : String) : Prop := ∀ c ∈ s.toList, isLineTerminator c = false

instance (s : String) : Decidable (Unbroken s) := List.decidableBAll _ _

theorem unbroken_append {s t : String} : Unbroken (s ++ t) ↔ Unbroken s ∧ Unbroken t := by
  rw [Unbroken, String.toList_append, List.forall_mem_append]
  rfl

theorem not_terminator_of_digit {c : Char} (digit : c.isDigit = true) : isLineTerminator c = false := by
  by_contra terminator
  rw [Bool.not_eq_false] at terminator
  simp only [isLineTerminator, Bool.or_eq_true, beq_iff_eq] at terminator
  rcases terminator with ((rfl | rfl) | rfl) | rfl <;> cases digit

theorem padded_unbroken (width n : Nat) : Unbroken (padded width n) := by
  intro c listed
  rw [padded, String.toList_ofList] at listed
  rcases List.mem_append.mp listed with padding | digit
  · obtain rfl := List.eq_of_mem_replicate padding
    rfl
  · exact not_terminator_of_digit (Nat.isDigit_of_mem_toDigits (by decide) (by decide) digit)

theorem yearText_unbroken (year : Int) : Unbroken (yearText year) := by
  unfold yearText
  split
  · exact padded_unbroken _ _
  · refine unbroken_append.mpr ⟨?_, padded_unbroken _ _⟩
    split <;> decide

theorem Timestamp.render_unbroken (t : Timestamp) : Unbroken t.render := by
  unfold Timestamp.render
  simp only [unbroken_append, yearText_unbroken, padded_unbroken, true_and, and_true]
  decide

namespace Banner

open TypeScript

variable {b : Banner}

/-- The lines of a banner, as a mark and what stands behind it. -/
def remarks (b : Banner) : List (String × String) :=
  [("// ", b.product ++ " entity types")] ++
    b.serverVersion.toList.map ("// Server version: ", ·) ++
    b.generatedAt.toList.map (fun time => ("// Generated at: ", time.render)) ++
    [("// ", "Do not edit by hand; regenerate from the server schema.")]

theorem render_eq (b : Banner) :
    b.render = String.join ((b.remarks.map fun remark => remark.1 ++ remark.2).map (· ++ "\n")) ++ "\n" := by
  obtain ⟨product, serverVersion, generatedAt⟩ := b
  unfold render remarks
  cases serverVersion <;> cases generatedAt <;> simp [String.join_cons, String.append_assoc]

theorem forall_remarks {p : String × String → Prop} : (∀ remark ∈ b.remarks, p remark) ↔
    p ("// ", b.product ++ " entity types") ∧
      (∀ version, b.serverVersion = some version → p ("// Server version: ", version)) ∧
      (∀ time, b.generatedAt = some time → p ("// Generated at: ", time.render)) ∧
      p ("// ", "Do not edit by hand; regenerate from the server schema.") := by
  unfold remarks
  cases b.serverVersion <;> cases b.generatedAt <;> simp

/-- A banner stays in its comments exactly if what stands behind each mark does. -/
theorem commentsAhead_iff : CommentsAhead b.render ↔ ∀ remark ∈ b.remarks, StaysInComment remark.2 := by
  have plain : IsCommentLine "// ".toList ∧ Unbroken "// " := by decide
  have versioned : IsCommentLine "// Server version: ".toList ∧ Unbroken "// Server version: " := by decide
  have timed : IsCommentLine "// Generated at: ".toList ∧ Unbroken "// Generated at: " := by decide
  have marks : ∀ remark ∈ b.remarks, IsCommentLine remark.1.toList ∧ Unbroken remark.1 :=
    forall_remarks.mpr ⟨plain, fun _ _ => versioned, fun _ _ => timed, plain⟩
  rw [render_eq, commentsAhead_block, List.forall_mem_map]
  refine forall_congr' fun remark => forall_congr' fun listed => ?_
  obtain ⟨marked, unbroken⟩ := marks remark listed
  exact commentLines_iff marked unbroken remark.2

end Banner

/-- A banner is lines of comment and one blank line, whatever code follows, exactly if neither the product nor the
version has a further line that leaves the comment. In any case it ends so that the first block needs no blank line
in front of it. -/
theorem Banner.render_comments_iff (b : Banner) :
    (CommentsAhead b.render ↔ StaysInComment (b.product ++ " entity types") ∧
      ∀ version, b.serverVersion = some version → StaysInComment version) ∧
    separator b.render = "" := by
  have fixed : StaysInComment "Do not edit by hand; regenerate from the server schema." := by decide
  have timed (time : Timestamp) : StaysInComment time.render := staysInComment_of_unbroken time.render_unbroken
  constructor
  · rw [Banner.commentsAhead_iff, Banner.forall_remarks]
    simp only [fixed, timed, implies_true, and_true]
  · exact separator_eq_empty.mpr (.inr (endsBlank_append _ (by decide)))

/-- A line break in a product puts code in front of the declarations. -/
theorem broken_product_uncommented : ¬CommentsAhead (Banner.mk "Studio\nexport \x7b\x7d" none none).render := by
  rw [Banner.commentsAhead_iff]
  decide

/-- Breaks of any kind may stand in a text whose further lines are comments. -/
example : StaysInComment "4.13\u2028// (beta)\r" ∧ ¬StaysInComment "4.13\r(beta)" := by decide

end EntityTypings
