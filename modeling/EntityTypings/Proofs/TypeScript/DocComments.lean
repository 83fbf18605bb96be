import EntityTypings.Proofs.TypeScript.Comments

/-!
# Where a doc comment ends

A reader of TypeScript takes a comment to end at the first `*/` behind its start, `behindComment?`. A doc comment has
that mark once, at its end, whatever the description and the default value hold, and there is none only if there is
nothing to tell: `docComment_enclosed`.
-/

namespace EntityTypings

namespace Text

/-- A text of blank space. -/
def Blank (s : String) : Prop := ∀ c ∈ s.toList, isBlank c = true

/-! ### Texts that collapse to nothing -/

theorem words_of_blank {s : List Char} (blank : ∀ c ∈ s, isBlank c = true) : words s = [] := by
  induction s with
  | nil => rfl
  | cons c s ih =>
    obtain ⟨first, blank⟩ := List.forall_mem_cons.mp blank
    rw [words, if_pos first, ih blank]

/-- No visible character is lost between the words. -/
theorem mem_words {s : List Char} : ∀ c ∈ s, isBlank c = false → ∃ word ∈ words s, c ∈ word := by
  induction s with
  | nil => exact fun _ listed => absurd listed List.not_mem_nil
  | cons d s ih =>
    intro c listed visible
    have later (inside : c ∈ s) : ∃ word ∈ words s, c ∈ word := ih c inside visible
    unfold words
    split
    next blank =>
      rcases List.mem_cons.mp listed with rfl | inside
      · rw [visible] at blank
        cases blank
      · exact later inside
    next shown =>
      split
      next ended =>
        rcases List.mem_cons.mp listed with rfl | inside
        · exact ⟨[c], List.mem_cons_self, List.mem_singleton_self c⟩
        · obtain ⟨word, found, within⟩ := later inside
          exact ⟨word, List.mem_cons_of_mem _ found, within⟩
      next going =>
        -- the character behind is visible, so that there is a word for the first one to join
        have some_word : words s ≠ [] := by
          cases s with
          | nil => exact absurd rfl going
          | cons next rest =>
            have visible : isBlank next = false := by simpa using going
            obtain ⟨word, found, _⟩ := ih next List.mem_cons_self visible
            exact List.ne_nil_of_mem found
        obtain ⟨word, others, split⟩ := List.exists_cons_of_ne_nil some_word
        rw [split, List.modifyHead_cons]
        rcases List.mem_cons.mp listed with rfl | inside
        · exact ⟨c :: word, List.mem_cons_self, List.mem_cons_self⟩
        · obtain ⟨found, member, within⟩ := later inside
          rw [split] at member
          rcases List.mem_cons.mp member with rfl | member
          · exact ⟨d :: found, List.mem_cons_self, List.mem_cons_of_mem _ within⟩
          · exact ⟨found, List.mem_cons_of_mem _ member, within⟩

theorem mem_intercalate_of_mem {separator word : List Char} {parts : List (List Char)} {c : Char}
    (listed : word ∈ parts) (within : c ∈ word) : c ∈ separator.intercalate parts := by
  induction parts with
  | nil => exact absurd listed List.not_mem_nil
  | cons part rest ih =>
    cases rest with
    | nil =>
      obtain rfl := List.mem_singleton.mp listed
      rwa [List.intercalate_singleton]
    | cons next rest =>
      rw [List.intercalate_cons_cons, List.mem_append, List.mem_append]
      rcases List.mem_cons.mp listed with rfl | later
      · exact .inl (.inl within)
      · exact .inr (ih later)

theorem collapse_eq_empty {s : String} : collapse s = "" ↔ Blank s := by
  rw [collapse, ← String.toList_eq_nil_iff, String.toList_ofList]
  constructor
  · intro none c listed
    by_contra visible
    obtain ⟨word, found, within⟩ := mem_words c listed (Bool.eq_false_iff.mpr visible)
    have kept : c ∈ [' '].intercalate (words s.toList) := mem_intercalate_of_mem found within
    rw [none] at kept
    exact absurd kept List.not_mem_nil
  · intro blank
    rw [words_of_blank blank]
    rfl

end Text

namespace TypeScript

open Text (OneLine Blank)

/-! ### Reading a comment -/

/-- What stands behind the first `*/`. -/
def behindEnd? : List Char → Option (List Char)
  | '*' :: '/' :: s => some s
  | _ :: s => behindEnd? s
  | [] => none

/-- What stands behind a comment, with spaces in front of it. -/
def behindComment? : List Char → Option (List Char)
  | ' ' :: s => behindComment? s
  | '/' :: '*' :: s => behindEnd? s
  | _ => none

example : behindComment? "  /* a * / b */ c */".toList = some " c */".toList := by decide

/-- The end of a comment stands in a text. -/
abbrev HasEnd (s : List Char) : Prop := ['*', '/'] <:+: s

theorem hasEnd_cons {c : Char} {s : List Char} : HasEnd (c :: s) ↔ (c = '*' ∧ s.head? = some '/') ∨ HasEnd s := by
  rw [HasEnd, List.infix_cons_iff, List.cons_prefix_cons, eq_comm (a := '*')]
  cases s with
  | nil => simp
  | cons d s => simp [eq_comm (a := '/')]

theorem hasEnd_spaced {s t : List Char} : HasEnd (s ++ ' ' :: t) ↔ HasEnd s ∨ HasEnd t := by
  induction s with
  | nil => simp [hasEnd_cons]
  | cons c s ih =>
    have head : (s ++ ' ' :: t).head? = some '/' ↔ s.head? = some '/' := by cases s <;> simp
    rw [List.cons_append, hasEnd_cons, hasEnd_cons, ih, head, or_assoc]

/-- A reader comes to the first end behind a text that has none. -/
theorem behindEnd?_append {s : List Char} (unended : ¬HasEnd s) (rest : List Char) :
    behindEnd? (s ++ '*' :: '/' :: rest) = some rest := by
  induction s with
  | nil => rfl
  | cons c s ih =>
    rw [hasEnd_cons, not_or] at unended
    obtain ⟨first, unended⟩ := unended
    rw [List.cons_append, behindEnd?, ih unended]
    rintro after rfl same
    refine first ⟨rfl, ?_⟩
    cases s with
    | nil => cases same
    | cons d s => rw [(List.cons.inj same).1]; rfl

/-- Behind a text without an end there is one place for the end that is put there. -/
theorem end_unique {s before after : List Char} (unended : ¬HasEnd s)
    (same : s ++ ['*', '/', '\n'] = before ++ '*' :: '/' :: after) : after = ['\n'] := by
  induction s generalizing before with
  | nil =>
    rcases before with _ | ⟨a, _ | ⟨b, _ | ⟨c, before⟩⟩⟩ <;> simp_all
  | cons c s ih =>
    rw [hasEnd_cons, not_or] at unended
    obtain ⟨first, unended⟩ := unended
    cases before with
    | nil =>
      obtain ⟨rfl, slash⟩ := List.cons.inj same
      refine absurd ⟨rfl, ?_⟩ first
      cases s with
      | nil => cases slash
      | cons d s => exact congrArg some (List.cons.inj slash).1
    | cons _ before => exact ih unended (List.cons.inj same).2

/-! ### Guarded texts -/

theorem guardEnd_head (s : List Char) : (guardEnd s).head? = s.head? := by
  unfold guardEnd
  split <;> rfl

theorem guardEnd_open (s : List Char) : ¬HasEnd (guardEnd s) := by
  induction s using guardEnd.induct with
  | case1 s ih => simpa [guardEnd, hasEnd_cons] using ih
  | case2 c s other ih =>
    rw [guardEnd, hasEnd_cons, guardEnd_head, not_or]
    · refine ⟨?_, ih⟩
      rintro ⟨rfl, slash⟩
      obtain ⟨rest, rfl⟩ := List.head?_eq_some_iff.mp slash
      exact other rest rfl rfl
    · exact other
  | case3 => decide

/-- A comment that starts with `/**`, ends with the one `*/` in it, and takes a line of its own. -/
structure IsEnclosed (text : String) : Prop where
  opened : "  /** ".toList <+: text.toList
  closed : "*/\n".toList <:+ text.toList
  once : ∀ before after, text.toList = before ++ '*' :: '/' :: after → after = ['\n']
  line : text.toList.count '\n' = 1
  read : ∀ code, behindComment? (text.toList ++ code) = some ('\n' :: code)

/-- A text that is guarded and on one line makes a comment. -/
theorem isEnclosed_guarded {s : List Char} (unbroken : OneLine (String.ofList (guardEnd s))) :
    IsEnclosed ("  /** " ++ String.ofList (guardEnd s) ++ " */\n") := by
  have chars : ("  /** " ++ String.ofList (guardEnd s) ++ " */\n").toList =
      ' ' :: ' ' :: '/' :: '*' :: (('*' :: ' ' :: (guardEnd s ++ [' '])) ++ ['*', '/', '\n']) := by
    simp
  have inside : ¬HasEnd ('*' :: ' ' :: (guardEnd s ++ [' '])) := by
    simp [hasEnd_cons, hasEnd_spaced, guardEnd_open]
  refine ⟨⟨guardEnd s ++ " */\n".toList, ?_⟩, ⟨"  /** ".toList ++ guardEnd s ++ [' '], ?_⟩, ?_, ?_, ?_⟩
  · rw [chars]
    simp
  · rw [chars]
    simp
  · intro before after same
    rw [chars] at same
    have whole : ¬HasEnd (' ' :: ' ' :: '/' :: '*' :: ('*' :: ' ' :: (guardEnd s ++ [' ']))) := by
      simpa [hasEnd_cons] using inside
    exact end_unique whole same
  · have none : (guardEnd s).count '\n' = 0 := by
      rw [List.count_eq_zero]
      rwa [OneLine, String.toList_ofList] at unbroken
    rw [chars]
    simp [none]
  · intro code
    rw [chars]
    simpa [behindComment?] using behindEnd?_append inside ('\n' :: code)

/-! ### Comments of properties -/

/-- A property has neither a default value nor a description with anything in it. -/
def Undescribed (p : Property) : Prop := p.default = none ∧ ∀ text, p.description = some text → Blank text

theorem docSentences_eq_nil {p : Property} : docSentences p = [] ↔ Undescribed p := by
  have described : (p.description.map Text.collapse).toList.filter (· ≠ "") = [] ↔
      ∀ text, p.description = some text → Blank text := by
    cases p.description <;> simp [Text.collapse_eq_empty]
  rw [docSentences, List.append_eq_nil_iff, described, Undescribed, and_comm]
  cases p.default <;> simp

theorem docComment_eq_none {p : Property} : docComment p = none ↔ Undescribed p := by
  rw [← docSentences_eq_nil, docComment]
  split <;> simp_all

end TypeScript

open TypeScript

/-- A property has no comment exactly if it has no default value and no description but blank space. Any comment
starts with two spaces and `/**`, has one `*/` and one line break, both at its end, and is read as a comment as far
as that, whatever code follows. -/
theorem docComment_enclosed (p : Property) :
    (docComment p = none ↔ Undescribed p) ∧ ∀ text, docComment p = some text → IsEnclosed text := by
  refine ⟨docComment_eq_none, fun text commented => ?_⟩
  unfold docComment at commented
  split at commented
  · cases commented
  next sentences filled =>
    obtain rfl := Option.some.inj commented
    exact isEnclosed_guarded (docText_oneLine p)

/-- A property with ends of comments in its description and in its default value. -/
def closing : Property :=
  { Property.empty with description := some " **//\n", default := some (.str "*/\n") }

theorem closing_enclosed :
    docComment closing = some "  /** **\\// Defaults to `\"*\\/\\n\"`. */\n" ∧
      IsEnclosed "  /** **\\// Defaults to `\"*\\/\\n\"`. */\n" := by
  have commented : docComment closing = some "  /** **\\// Defaults to `\"*\\/\\n\"`. */\n" := by decide +kernel
  exact ⟨commented, (docComment_enclosed closing).2 _ commented⟩

end EntityTypings
