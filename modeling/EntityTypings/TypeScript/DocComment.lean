import EntityTypings.Json.Writer
import EntityTypings.Schema.Basic
import EntityTypings.Text.Blank

/-!
# Doc comments

A property's description and default value as a comment on one line. A comment's end inside the text is
broken up by a backslash.
-/

namespace EntityTypings.TypeScript

/-- Puts a backslash into every `*/`. -/
def guardEnd : List Char → List Char
  | '*' :: '/' :: s => '*' :: '\\' :: '/' :: guardEnd s
  | c :: s => c :: guardEnd s
  | [] => []

/-- The sentences of a property's comment. -/
def docSentences (p : Property) : List String :=
  (p.description.map Text.collapse).toList.filter (· ≠ "") ++
    (p.default.map fun v => "Defaults to `" ++ v.write ++ "`.").toList

/-- The comment of a property that has a description or a default value. -/
def docComment (p : Property) : Option String :=
  match docSentences p with
  | [] => none
  | sentences =>
    some ("  /** " ++ String.ofList (guardEnd (" ".intercalate sentences).toList) ++ " */\n")

end EntityTypings.TypeScript
