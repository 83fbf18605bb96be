import Mathlib.Data.List.Basic

/-!
# Lines of a text

`withoutLines` leaves out the lines of a text that start with a mark. On texts that consist of whole lines it may
be taken piece by piece: `withoutLines_append`. `Leaves` keeps account of what is left of such a text.
-/

namespace EntityTypings.Text

/-- The lines of a text, each with the line break that ends it. -/
def lines : List Char → List (List Char)
  | [] => []
  | c :: s =>
    if c = '\n' then [c] :: lines s
    else match lines s with
      | [] => [[c]]
      | line :: rest => (c :: line) :: rest

/-- A text without the lines that start with `mark`. -/
def withoutLines (mark s : String) : String :=
  String.ofList ((lines s.toList).filter fun line => !mark.toList.isPrefixOf line).flatten

/-- A text without a line break. -/
def OneLine (s : String) : Prop := '\n' ∉ s.toList

/-- A text that is empty or ends with a line break. -/
def WholeLines (s : String) : Prop :=
  ∃ bodies : List (List Char), (∀ body ∈ bodies, '\n' ∉ body) ∧ s.toList = bodies.flatMap (· ++ ['\n'])

instance (s : String) : Decidable (OneLine s) := inferInstanceAs (Decidable ('\n' ∉ s.toList))

variable {mark s t : String} {parts : List String}

/-! ### Texts without a line break -/

theorem oneLine_append : OneLine (s ++ t) ↔ OneLine s ∧ OneLine t := by
  rw [OneLine, String.toList_append, List.mem_append, not_or]
  rfl

theorem oneLine_intercalate (separator : OneLine s) (each : ∀ part ∈ parts, OneLine part) :
    OneLine (s.intercalate parts) := by
  induction parts with
  | nil =>
    rw [String.intercalate_nil]
    decide
  | cons part rest ih =>
    obtain ⟨first, each⟩ := List.forall_mem_cons.mp each
    by_cases last : rest = []
    · subst last
      rwa [String.intercalate_singleton]
    · rw [String.intercalate_cons_of_ne_nil last]
      exact oneLine_append.mpr ⟨oneLine_append.mpr ⟨first, separator⟩, ih each⟩

/-! ### Whole lines -/

theorem lines_line {body : List Char} (unbroken : '\n' ∉ body) (rest : List Char) :
    lines (body ++ '\n' :: rest) = (body ++ ['\n']) :: lines rest := by
  induction body with
  | nil => rw [List.nil_append, lines, if_pos rfl, List.nil_append]
  | cons c body ih =>
    rw [List.mem_cons, not_or] at unbroken
    obtain ⟨visible, unbroken⟩ := unbroken
    rw [List.cons_append, lines, if_neg (Ne.symm visible), ih unbroken]
    rfl

theorem lines_whole {bodies : List (List Char)} (unbroken : ∀ body ∈ bodies, '\n' ∉ body) (rest : List Char) :
    lines (bodies.flatMap (· ++ ['\n']) ++ rest) = bodies.map (· ++ ['\n']) ++ lines rest := by
  induction bodies with
  | nil => rfl
  | cons body others ih =>
    obtain ⟨first, unbroken⟩ := List.forall_mem_cons.mp unbroken
    rw [List.flatMap_cons, List.append_assoc, List.append_assoc, List.singleton_append, lines_line first,
      ih unbroken]
    rfl

theorem WholeLines.append (first : WholeLines s) (second : WholeLines t) : WholeLines (s ++ t) := by
  obtain ⟨bodies, unbroken, split⟩ := first
  obtain ⟨bodies', unbroken', split'⟩ := second
  refine ⟨bodies ++ bodies', List.forall_mem_append.mpr ⟨unbroken, unbroken'⟩, ?_⟩
  rw [String.toList_append, split, split', List.flatMap_append]

theorem OneLine.whole (unbroken : OneLine s) : WholeLines (s ++ "\n") := by
  refine ⟨[s.toList], fun body listed => List.mem_singleton.mp listed ▸ unbroken, ?_⟩
  rw [String.toList_append, List.flatMap_singleton]
  rfl

/-- Whole lines lose their marked ones whatever follows. -/
theorem withoutLines_append (whole : WholeLines s) (t : String) :
    withoutLines mark (s ++ t) = withoutLines mark s ++ withoutLines mark t := by
  obtain ⟨bodies, unbroken, split⟩ := whole
  have alone : lines s.toList = bodies.map (· ++ ['\n']) := by
    have whole := lines_whole unbroken []
    rwa [List.append_nil, ← split, lines, List.append_nil] at whole
  have both : lines (s ++ t).toList = lines s.toList ++ lines t.toList := by
    rw [String.toList_append, split, lines_whole unbroken, ← split, alone]
  rw [withoutLines, both, List.filter_append, List.flatten_append, String.ofList_append]
  rfl

/-! ### What is left of whole lines -/

/-- A text of whole lines, of which those that do not start with the mark are `left`. -/
structure Leaves (mark s left : String) : Prop where
  whole : WholeLines s
  eq : withoutLines mark s = left

variable {left left' : String}

theorem Leaves.empty (mark : String) : Leaves mark "" "" where
  whole := ⟨[], by simp, rfl⟩
  eq := rfl

theorem filter_line (unbroken : OneLine s) : withoutLines mark (s ++ "\n") =
    if mark.toList.isPrefixOf (s ++ "\n").toList then "" else s ++ "\n" := by
  have single : lines (s ++ "\n").toList = [(s ++ "\n").toList] := by
    rw [String.toList_append, show "\n".toList = ['\n'] from rfl, lines_line unbroken]
    rfl
  rw [withoutLines, single, List.filter_cons]
  cases mark.toList.isPrefixOf (s ++ "\n").toList with
  | true => rfl
  | false => exact (congrArg String.ofList (List.append_nil _)).trans (String.ofList_toList)

theorem Leaves.marked (unbroken : OneLine s) (marked : mark.toList <+: s.toList) : Leaves mark (s ++ "\n") "" where
  whole := unbroken.whole
  eq := by
    have found : mark.toList <+: (s ++ "\n").toList := by
      rw [String.toList_append]
      exact marked.trans (List.prefix_append _ _)
    rw [filter_line unbroken, if_pos (List.isPrefixOf_iff_prefix.mpr found)]

theorem Leaves.line (unbroken : OneLine s) (other : ¬mark.toList <+: (s ++ "\n").toList) :
    Leaves mark (s ++ "\n") (s ++ "\n") where
  whole := unbroken.whole
  eq := by rw [filter_line unbroken, if_neg (mt List.isPrefixOf_iff_prefix.mp other)]

theorem Leaves.append (first : Leaves mark s left) (second : Leaves mark t left') :
    Leaves mark (s ++ t) (left ++ left') where
  whole := first.whole.append second.whole
  eq := by rw [withoutLines_append first.whole, first.eq, second.eq]

variable {α : Type} {items : List α} {text rest : α → String}

theorem Leaves.join (each : ∀ item ∈ items, Leaves mark (text item) (rest item)) :
    Leaves mark (String.join (items.map text)) (String.join (items.map rest)) := by
  induction items with
  | nil => exact .empty mark
  | cons item others ih =>
    obtain ⟨first, each⟩ := List.forall_mem_cons.mp each
    rw [List.map_cons, List.map_cons, String.join_cons, String.join_cons]
    exact first.append (ih each)

theorem Leaves.intercalate (blank : ¬mark.toList <+: ['\n'])
    (each : ∀ item ∈ items, Leaves mark (text item) (rest item)) :
    Leaves mark ("\n".intercalate (items.map text)) ("\n".intercalate (items.map rest)) := by
  have empty_line : Leaves mark "\n" "\n" := Leaves.line (s := "") (by decide) blank
  induction items with
  | nil => exact .empty mark
  | cons item others ih =>
    obtain ⟨first, each⟩ := List.forall_mem_cons.mp each
    by_cases last : others = []
    · subst last
      rw [List.map_singleton, List.map_singleton, String.intercalate_singleton, String.intercalate_singleton]
      exact first
    · rw [List.map_cons, List.map_cons, String.intercalate_cons_of_ne_nil (mt List.map_eq_nil_iff.mp last),
        String.intercalate_cons_of_ne_nil (mt List.map_eq_nil_iff.mp last)]
      exact (first.append empty_line).append (ih each)

end EntityTypings.Text
