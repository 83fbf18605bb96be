import EntityTypings.Proofs.Json.Writer
import EntityTypings.Proofs.TypeScript.Lines
import EntityTypings.TypeScript.DocComment
import EntityTypings.TypeScript.Interface

/-!
# Comments and code

A comment is a line of its own, `docComment_line`, and no line of code starts as comments do. So what is left of an
interface without its comments is the interface as it is declared without them, `Interface.OnLines.leaves`.
-/

namespace EntityTypings.TypeScript

open Text (OneLine Leaves oneLine_append oneLine_intercalate)

/-- What the line of a comment starts with. -/
def docMark : String := "  /**"

theorem docMark_chars : docMark.toList = [' ', ' ', '/', '*', '*'] := rfl

theorem unmarked_of_start {s : String} (indented : ∃ c rest, s.toList = ' ' :: ' ' :: c :: rest ∧ c ≠ '/') :
    ¬docMark.toList <+: s.toList := by
  obtain ⟨c, rest, start, visible⟩ := indented
  rw [start, docMark_chars]
  rintro ⟨after, same⟩
  exact visible (List.cons.inj (List.cons.inj (List.cons.inj same).2).2).1.symm

/-- A line that starts as comments do. -/
def IsDocLine (text : String) : Prop := ∃ body, OneLine body ∧ text = docMark ++ body ++ "\n"

theorem IsDocLine.leaves {text : String} (comment : IsDocLine text) : Leaves docMark text "" := by
  obtain ⟨body, unbroken, rfl⟩ := comment
  refine Leaves.marked (oneLine_append.mpr ⟨by decide, unbroken⟩) ?_
  rw [String.toList_append]
  exact List.prefix_append _ _

/-! ### Texts of comments -/

theorem collapse_oneLine (s : String) : OneLine (Text.collapse s) := by
  have joined : Text.collapse s = " ".intercalate ((Text.words s.toList).map String.ofList) := by
    rw [← String.toList_inj, String.toList_intercalate, List.map_map, Text.collapse, String.toList_ofList]
    simp [Function.comp_def]
  rw [joined]
  refine oneLine_intercalate (by decide) fun text listed => ?_
  obtain ⟨word, found, rfl⟩ := List.mem_map.mp listed
  intro broken
  rw [String.toList_ofList] at broken
  have visible := Text.words_blank_free s.toList word found '\n' broken
  exact absurd visible (by decide)

theorem write_oneLine (v : Json.Value) : OneLine v.write := by
  intro broken
  rw [Json.Value.write, String.toList_ofList] at broken
  exact absurd (v.written_visible '\n' broken) (by decide)

theorem mem_of_mem_guardEnd {c : Char} {s : List Char} (listed : c ∈ guardEnd s) : c ∈ s ∨ c = '\\' := by
  induction s using guardEnd.induct with
  | case1 s ih =>
    simp only [guardEnd, List.mem_cons] at listed ⊢
    tauto
  | case2 d s other ih =>
    rw [guardEnd] at listed
    · rcases List.mem_cons.mp listed with rfl | listed
      · exact .inl List.mem_cons_self
      · exact (ih listed).imp_left (List.mem_cons_of_mem _)
    · exact other
  | case3 => exact .inl listed

theorem docSentences_oneLine (p : Property) : ∀ sentence ∈ docSentences p, OneLine sentence := by
  intro sentence listed
  rcases List.mem_append.mp listed with described | defaulted
  · have kept := (List.mem_filter.mp described).1
    obtain ⟨description, _, rfl⟩ := Option.map_eq_some_iff.mp (Option.mem_toList.mp kept)
    exact collapse_oneLine description
  · obtain ⟨value, _, rfl⟩ := Option.map_eq_some_iff.mp (Option.mem_toList.mp defaulted)
    exact oneLine_append.mpr ⟨oneLine_append.mpr ⟨by decide, write_oneLine value⟩, by decide⟩

/-- What a comment says is one line, whatever the description and the default value hold. -/
theorem docText_oneLine (p : Property) :
    OneLine (String.ofList (guardEnd (" ".intercalate (docSentences p)).toList)) := by
  have joined : OneLine (" ".intercalate (docSentences p)) :=
    oneLine_intercalate (by decide) (docSentences_oneLine p)
  intro broken
  rw [String.toList_ofList] at broken
  rcases mem_of_mem_guardEnd broken with inside | added
  · exact joined inside
  · exact absurd added (by decide)

theorem docComment_line {p : Property} {text : String} (commented : docComment p = some text) : IsDocLine text := by
  unfold docComment at commented
  split at commented
  · cases commented
  next sentences filled =>
    obtain rfl := Option.some.inj commented
    refine ⟨" " ++ String.ofList (guardEnd (" ".intercalate (docSentences p)).toList) ++ " */", ?_, ?_⟩
    · exact oneLine_append.mpr ⟨oneLine_append.mpr ⟨by decide, docText_oneLine p⟩, by decide⟩
    · rw [show "  /** " = docMark ++ " " from rfl, show " */\n" = " */" ++ "\n" from rfl]
      simp only [String.append_assoc]

/-! ### Members -/

namespace Member

/-- A member on one line of code, with at most one line of comment above it. -/
structure OnLines (m : Member) : Prop where
  code : OneLine m.type.render
  comment : ∀ text, m.doc = some text → IsDocLine text

def withoutDoc (m : Member) : Member := { m with doc := none }

variable {m : Member}

theorem line_start (m : Member) : ∃ c rest, m.line.toList = ' ' :: ' ' :: c :: rest ∧ c ≠ '/' := by
  obtain ⟨c, key, start, first⟩ := propertyKey_start m.name
  unfold line
  simp only [String.toList_append, List.append_assoc, start]
  rw [show "  ".toList = [' ', ' '] from rfl]
  split
  · exact ⟨'r', _, rfl, by decide⟩
  · refine ⟨c, _, rfl, ?_⟩
    rintro rfl
    exact absurd first (by decide)

/-- The line of a member whose type is on one line has its only break at the end. -/
theorem line_unbroken (typed : OneLine m.type.render) : ∃ s, m.line = s ++ "\n" ∧ OneLine s := by
  have split : m.line = "  " ++ (if m.readOnly then "readonly " else "") ++ propertyKey m.name ++
      (if m.required then "" else "?") ++ ": " ++ m.type.render ++ ";" ++ "\n" := by
    rw [line, show ";\n" = ";" ++ "\n" from rfl]
    simp only [String.append_assoc]
  have modifier : OneLine (if m.readOnly then "readonly " else "") := by
    split <;> decide
  have optional : OneLine (if m.required then "" else "?") := by
    split <;> decide
  refine ⟨_, split, ?_⟩
  simp only [oneLine_append]
  exact ⟨⟨⟨⟨⟨⟨by decide, modifier⟩, propertyKey_oneLine m.name⟩, optional⟩, by decide⟩, typed⟩, by decide⟩

theorem line_leaves (typed : OneLine m.type.render) : Leaves docMark m.line m.line := by
  obtain ⟨s, split, unbroken⟩ := line_unbroken typed
  have other := unmarked_of_start m.line_start
  rw [split] at other ⊢
  exact Leaves.line unbroken other

theorem OnLines.leaves (shaped : m.OnLines) : Leaves docMark m.render m.withoutDoc.render := by
  have code := line_leaves shaped.code
  have bare : m.withoutDoc.render = "" ++ m.line := rfl
  rw [bare]
  unfold render
  cases commented : m.doc with
  | none => exact (Leaves.empty docMark).append code
  | some text => exact (shaped.comment text commented).leaves.append code

end Member

/-! ### Interfaces -/

namespace Interface

/-- An interface with a header on one line, and its members on theirs. -/
structure OnLines (i : Interface) : Prop where
  id : OneLine i.id
  bases : ∀ base, .base base ∈ i.parents → OneLine base
  members : ∀ m ∈ i.members, m.OnLines

def withoutDocs (i : Interface) : Interface := { i with members := i.members.map Member.withoutDoc }

variable {i : Interface}

theorem OnLines.parentType (shaped : i.OnLines) {p : Parent} (extended : p ∈ i.parents) :
    OneLine (parentType i.id p).render := by
  apply TypeExpr.Named.render_oneLine
  unfold TypeScript.parentType
  apply TypeExpr.Named.without _ _ (by decide)
  cases p with
  | base base => exact shaped.bases base extended
  | typedContext => exact ⟨by decide, trivial, trivial⟩

theorem OnLines.extendsClause (shaped : i.OnLines) : OneLine (extendsClause i.id i.parents) := by
  unfold TypeScript.extendsClause
  split
  · decide
  · refine oneLine_append.mpr ⟨by decide, oneLine_intercalate (by decide) fun text listed => ?_⟩
    obtain ⟨p, extended, rfl⟩ := List.mem_map.mp listed
    exact shaped.parentType extended

theorem OnLines.header (shaped : i.OnLines) : OneLine
    ("export interface " ++ declarationName i.id ++ TypeScript.extendsClause i.id i.parents ++ " \x7b") := by
  have name : OneLine (declarationName i.id) := by
    unfold declarationName
    split
    · simp only [oneLine_append]
      exact ⟨⟨⟨⟨⟨⟨⟨shaped.id, by decide⟩, by decide⟩, by decide⟩, by decide⟩, by decide⟩, by decide⟩, by decide⟩
    · exact shaped.id
  simp only [oneLine_append]
  exact ⟨⟨⟨by decide, name⟩, shaped.extendsClause⟩, by decide⟩

theorem footer : Leaves docMark "\x7d\n" "\x7d\n" := Leaves.line (s := "\x7d") (by decide) (by decide)

theorem OnLines.leaves (shaped : i.OnLines) : Leaves docMark i.render i.withoutDocs.render := by
  have header : Leaves docMark
      ("export interface " ++ declarationName i.id ++ TypeScript.extendsClause i.id i.parents ++ " \x7b\n")
      ("export interface " ++ declarationName i.id ++ TypeScript.extendsClause i.id i.parents ++ " \x7b\n") := by
    rw [show " \x7b\n" = " \x7b" ++ "\n" from rfl, ← String.append_assoc]
    refine Leaves.line shaped.header fun marked => ?_
    simp only [String.toList_append, List.append_assoc] at marked
    exact absurd (List.cons_prefix_cons.mp marked).1 (by decide)
  have members : Leaves docMark (renderMembers i.members) (renderMembers i.withoutDocs.members) := by
    rw [renderMembers, renderMembers, withoutDocs, List.map_map]
    exact Leaves.join fun m listed => (shaped.members m listed).leaves
  unfold render
  exact (header.append members).append footer

end Interface

end EntityTypings.TypeScript
