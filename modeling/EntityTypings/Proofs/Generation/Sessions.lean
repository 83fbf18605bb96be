import EntityTypings.Proofs.Generation.Layout

/-!
# Sessions on an output

A caller adds soft errors, declarations and blocks of code to an output, in any order. An output that holds what was
added to it so far holds one more addition as well, `Output.Holds.add`, so that the output of a session holds the
whole of it, whatever was added: `Output.session_holds`. `Output.session_laid_out` is the case of blocks that are
paragraphs.
-/

namespace EntityTypings

/-! ### Paragraphs -/

/-- A text that is not empty, ends with exactly one line break and does not consist of line breaks. -/
structure Paragraph (s : String) : Prop where
  nonempty : s ≠ ""
  broken : ['\n'] <:+ s.toList
  once : ¬['\n', '\n'] <:+ s.toList
  visible : ∃ c ∈ s.toList, c ≠ '\n'

theorem paragraph_iff {s : String} : Paragraph s ↔ EndsLine s := by
  constructor
  · rintro ⟨_, ⟨front, split⟩, once, c, within, visible⟩
    rcases List.eq_nil_or_concat front with rfl | ⟨body, d, rfl⟩
    · rw [← split] at within
      exact absurd (List.mem_singleton.mp within) visible
    · -- `d` stands in front of the last line break, and another line break there would be one too many.
      rw [List.concat_eq_append, List.append_assoc] at split
      refine ⟨body, d, split.symm, ?_⟩
      rintro rfl
      exact once ⟨body, split⟩
  · rintro ⟨body, c, split, visible⟩
    constructor
    case nonempty =>
      rintro rfl
      simp at split
    case broken =>
      refine ⟨body ++ [c], ?_⟩
      rw [split, List.append_assoc]
      rfl
    case once =>
      rintro ⟨other, same⟩
      rw [split] at same
      exact visible (List.cons.inj (List.append_inj_right' same rfl)).1.symm
    case visible =>
      refine ⟨c, ?_, visible⟩
      rw [split]
      exact List.mem_append_right _ List.mem_cons_self

/-! ### Additions -/

/-- What a caller adds to an output. -/
inductive Addition where
  | error (error : SoftError)
  | declaration (id block : String)
  | code (block : String)

namespace Addition

def block? : Addition → Option String
  | .error _ => none
  | .declaration _ block => some block
  | .code block => some block

def id? : Addition → Option String
  | .declaration id _ => some id
  | _ => none

def error? : Addition → Option SoftError
  | .error e => some e
  | _ => none

def message? (a : Addition) : Option String := a.error?.map SoftError.message

theorem error?_eq_some {a : Addition} {e : SoftError} : a.error? = some e ↔ a = .error e := by
  cases a <;> simp [error?]

end Addition

namespace Output

def add (o : Output) : Addition → Output
  | .error e => o.pushError e
  | .declaration id block => o.pushDeclaration id block
  | .code block => o.pushCode block

/-- The output of a session that starts with nothing. -/
def session (additions : List Addition) : Output := additions.foldl add empty

/-- An output holds what was added to it: the ids and the soft errors in order, and the blocks joined by single line
breaks if each of them ends with exactly one. -/
structure Holds (o : Output) (additions : List Addition) : Prop where
  code : (∀ block ∈ additions.filterMap Addition.block?, EndsLine block) →
    o.code = "\n".intercalate (additions.filterMap Addition.block?)
  interfaces : o.interfaces = additions.filterMap Addition.id?
  errors : o.errors = additions.filterMap Addition.error?

variable {o : Output} {done : List Addition}

/-! ### One addition -/

theorem Holds.code_add (held : o.Holds done) {block : String}
    (ended : ∀ b ∈ done.filterMap Addition.block? ++ [block], EndsLine b) :
    appendBlock o.code block = "\n".intercalate (done.filterMap Addition.block? ++ [block]) := by
  -- Only the blocks so far decide what stands in front of the new one.
  obtain ⟨earlier, _⟩ := List.forall_mem_append.mp ended
  rw [held.code earlier, appendBlock_joined earlier]

theorem Holds.add (held : o.Holds done) (a : Addition) : (o.add a).Holds (done ++ [a]) := by
  cases a with
  | error e =>
    constructor <;> rw [List.filterMap_append]
    · intro ended
      obtain ⟨earlier, _⟩ := List.forall_mem_append.mp ended
      exact (held.code earlier).trans (congrArg _ (List.append_nil _).symm)
    · exact held.interfaces.trans (List.append_nil _).symm
    · exact congrArg (· ++ [e]) held.errors
  | declaration id block =>
    constructor <;> rw [List.filterMap_append]
    · exact held.code_add
    · exact congrArg (· ++ [id]) held.interfaces
    · exact held.errors.trans (List.append_nil _).symm
  | code block =>
    constructor <;> rw [List.filterMap_append]
    · exact held.code_add
    · exact held.interfaces.trans (List.append_nil _).symm
    · exact held.errors.trans (List.append_nil _).symm

/-! ### Sessions -/

theorem Holds.run (held : o.Holds done) (additions : List Addition) :
    (additions.foldl Output.add o).Holds (done ++ additions) := by
  -- What was added before grows by one addition at a time, hence any `done` and not only the empty one.
  induction additions generalizing o done with
  | nil => rwa [List.append_nil]
  | cons a rest ih =>
    rw [List.foldl_cons, List.append_cons]
    exact ih (held.add a)

theorem empty_holds : empty.Holds [] := ⟨fun _ => rfl, rfl, rfl⟩

theorem session_holds (additions : List Addition) : (session additions).Holds additions :=
  empty_holds.run additions

theorem Holds.messages (held : o.Holds done) : o.errors.map SoftError.message = done.filterMap Addition.message? := by
  rw [held.errors, List.map_filterMap]
  rfl

theorem Holds.hasErrors_iff (held : o.Holds done) : o.hasErrors = true ↔ ∃ e, Addition.error e ∈ done := by
  have some_error : o.hasErrors = true ↔ ∃ e, e ∈ o.errors := by
    rw [hasErrors, Bool.not_eq_true', List.isEmpty_eq_false_iff_exists_mem]
  rw [some_error, held.errors]
  simp only [List.mem_filterMap, Addition.error?_eq_some, exists_eq_right]

/-- The code of a session is its blocks, with one more line break between two of them; the declared ids and the soft
errors are listed as they came in, and there are errors exactly if one was added. -/
theorem session_laid_out (additions : List Addition)
    (paragraphs : ∀ block ∈ additions.filterMap Addition.block?, Paragraph block) :
    (session additions).code = "\n".intercalate (additions.filterMap Addition.block?) ∧
      (session additions).interfaces = additions.filterMap Addition.id? ∧
      (session additions).errors = additions.filterMap Addition.error? ∧
      (session additions).errors.map SoftError.message = additions.filterMap Addition.message? ∧
      ((session additions).hasErrors = true ↔ ∃ e, Addition.error e ∈ additions) := by
  have held := session_holds additions
  refine ⟨held.code ?_, held.interfaces, held.errors, held.messages, held.hasErrors_iff⟩
  intro block added
  exact paragraph_iff.mp (paragraphs block added)

/-- Soft errors between blocks, of which one starts with a line break, one has a blank line in it and two are the
same. -/
def mixedSession : List Addition :=
  [.error .noSchemas, .declaration "Shot" "type Shot = Task;\n", .code "\ntype Cut = Shot;\n",
    .error (.note "late\n"), .declaration "Shot" "type Shot = Task;\n", .code "a\n\nb\n"]

theorem mixed_session_laid_out :
    (∀ block ∈ mixedSession.filterMap Addition.block?, Paragraph block) ∧
    (session mixedSession).code =
      "type Shot = Task;\n\n\ntype Cut = Shot;\n\ntype Shot = Task;\n\na\n\nb\n" ∧
    (session mixedSession).interfaces = ["Shot", "Shot"] ∧
    (session mixedSession).errors.map SoftError.message = ["No schemas found", "late\n"] ∧
    (session mixedSession).hasErrors = true := by
  have shot : Paragraph "type Shot = Task;\n" :=
    paragraph_iff.mpr ⟨"type Shot = Task".toList, ';', by decide, by decide⟩
  have cut : Paragraph "\ntype Cut = Shot;\n" :=
    paragraph_iff.mpr ⟨"\ntype Cut = Shot".toList, ';', by decide, by decide⟩
  have gap : Paragraph "a\n\nb\n" := paragraph_iff.mpr ⟨"a\n\n".toList, 'b', by decide, by decide⟩
  have paragraphs : ∀ block ∈ mixedSession.filterMap Addition.block?, Paragraph block :=
    List.forall_mem_cons.mpr ⟨shot, List.forall_mem_cons.mpr ⟨cut, List.forall_mem_cons.mpr ⟨shot,
      List.forall_mem_singleton.mpr gap⟩⟩⟩
  obtain ⟨code, interfaces, _, messages, errors⟩ := session_laid_out mixedSession paragraphs
  exact ⟨paragraphs, code, interfaces, messages, errors.mpr ⟨.noSchemas, List.mem_cons_self⟩⟩

/-- A block of one line break leaves a blank line, so that no line break is added in front of the next block. -/
example : (session [.code "a\n", .code "\n", .code "b\n"]).code = "a\n\n\nb\n" := by decide

end Output

end EntityTypings
