import EntityTypings.Proofs.TypeScript.Literals

/-!
# Tokens of types

`scanTokens` reads the text of a type as names, string literals and marks, with blanks between them. `Scans` says
that a text is read as certain tokens whatever comes behind it, and `Scans.append` composes such texts.
-/

namespace EntityTypings.TypeScript

/-! ### Names -/

/-- Beyond ASCII every character counts as a letter. -/
def startsName (c : Char) : Bool := isIdentifierStart c || 0x80 ≤ c.toNat

def continuesName (c : Char) : Bool := isIdentifierPart c || 0x80 ≤ c.toNat

def IsName (s : String) : Prop :=
  ∃ c rest, s.toList = c :: rest ∧ startsName c = true ∧ ∀ d ∈ rest, continuesName d = true

theorem continuesName_of_starts {c : Char} (start : startsName c = true) : continuesName c = true := by
  simp only [startsName, isIdentifierStart, continuesName, isIdentifierPart, Char.isAlphanum, Bool.or_eq_true] at *
  tauto

theorem IsName.continues {s : String} (named : IsName s) : ∀ c ∈ s.toList, continuesName c = true := by
  obtain ⟨c, rest, chars, start, later⟩ := named
  rw [chars]
  exact List.forall_mem_cons.mpr ⟨continuesName_of_starts start, later⟩

theorem isName_of_identifier {s : String} (plain : isIdentifier s = true) : IsName s := by
  obtain ⟨c, rest, chars, start, parts⟩ := identifier_chars plain
  refine ⟨c, rest, chars, by rw [startsName, start, Bool.true_or], fun d listed => ?_⟩
  rw [continuesName, parts d (List.mem_cons_of_mem c listed), Bool.true_or]

/-! ### Marks and tokens -/

inductive Mark where
  | bar
  | ampersand
  | comma
  | colon
  | semicolon
  | less
  | greater
  | parenthesis
  | parenthesisEnd
  | bracket
  | bracketEnd
  | brace
  | braceEnd
  deriving DecidableEq, Repr

def Mark.ofChar? (c : Char) : Option Mark :=
  match c with
  | '|' => some .bar
  | '&' => some .ampersand
  | ',' => some .comma
  | ':' => some .colon
  | ';' => some .semicolon
  | '<' => some .less
  | '>' => some .greater
  | '(' => some .parenthesis
  | ')' => some .parenthesisEnd
  | '[' => some .bracket
  | ']' => some .bracketEnd
  | '\x7b' => some .brace
  | '\x7d' => some .braceEnd
  | _ => none

inductive Token where
  | name (s : String)
  | literal (s : String)
  | mark (m : Mark)
  deriving DecidableEq, Repr

/-- The tokens of a text. The first `n` characters belong to a token that has been read already. -/
def scanTokens : Nat → List Char → Option (List Token)
  | _, [] => some []
  | n + 1, _ :: s => scanTokens n s
  | 0, c :: s =>
    if c = ' ' then scanTokens 0 s
    else if c = '"' then do
      let (value, rest) ← scanLiteral 0 s
      (scanTokens (s.length - rest.length) s).map (.literal (String.ofList value) :: ·)
    else if startsName c then
      let others := s.takeWhile continuesName
      (scanTokens others.length s).map (.name (String.ofList (c :: others)) :: ·)
    else do
      let m ← Mark.ofChar? c
      (scanTokens 0 s).map (.mark m :: ·)

example : scanTokens 0 "Array<\"a|b\" | Ω>".toList =
    some [.name "Array", .mark .less, .literal "a|b", .mark .bar, .name "Ω", .mark .greater] := by decide

theorem scanTokens_skip (n : Nat) (s : List Char) : scanTokens n s = scanTokens 0 (s.drop n) := by
  induction n generalizing s with
  | zero => rfl
  | succ n ih =>
    cases s with
    | nil => rfl
    | cons c s => exact ih s

/-! ### Texts that are read as tokens -/

/-- No name goes on with what starts here. -/
def EndsName (rest : List Char) : Prop := ∀ c ∈ rest.head?, continuesName c = false

/-- In front of a text as described by `after`, this one is read as certain tokens, or none is if it is broken. -/
structure Scans (after : List Char → Prop) (s : String) (unbroken : Prop) (tokens : List Token) : Prop where
  read : unbroken → ∀ rest, after rest →
    scanTokens 0 (s.toList ++ rest) = (scanTokens 0 rest).map (tokens ++ ·)
  refused : ¬unbroken → ∀ rest, after rest → scanTokens 0 (s.toList ++ rest) = none

variable {after after' : List Char → Prop} {s t : String} {unbroken unbroken' : Prop} {tokens tokens' : List Token}

theorem Scans.append (first : Scans after s unbroken tokens) (second : Scans after' t unbroken' tokens')
    (behind : ∀ rest, after' rest → after (t.toList ++ rest)) :
    Scans after' (s ++ t) (unbroken ∧ unbroken') (tokens ++ tokens') where
  read whole rest follows := by
    rw [String.toList_append, List.append_assoc, first.read whole.1 _ (behind rest follows),
      second.read whole.2 rest follows, Option.map_map]
    simp only [Function.comp_def, List.append_assoc]
  refused broken rest follows := by
    rw [String.toList_append, List.append_assoc]
    by_cases whole : unbroken
    · have broken' : ¬unbroken' := fun whole' => broken ⟨whole, whole'⟩
      rw [first.read whole _ (behind rest follows), second.refused broken' rest follows, Option.map_none]
    · exact first.refused whole _ (behind rest follows)

theorem Scans.mono (scanned : Scans after s unbroken tokens) (weaker : ∀ rest, after' rest → after rest) :
    Scans after' s unbroken tokens where
  read whole rest follows := scanned.read whole rest (weaker rest follows)
  refused broken rest follows := scanned.refused broken rest (weaker rest follows)

theorem Scans.congr (scanned : Scans after s unbroken tokens) (same : unbroken ↔ unbroken') :
    Scans after s unbroken' tokens := by
  rwa [← propext same]

theorem scans_name (named : IsName s) : Scans EndsName s True [.name s] where
  read _ rest follows := by
    obtain ⟨c, others, chars, start, parts⟩ := named
    have run : (others ++ rest).takeWhile continuesName = others := by
      rw [List.takeWhile_append_of_pos parts]
      cases rest with
      | nil => simp
      | cons d rest => rw [List.takeWhile_cons, follows d rfl]; exact List.append_nil others
    have blank : c ≠ ' ' := by
      rintro rfl
      cases start
    have quote : c ≠ '"' := by
      rintro rfl
      cases start
    rw [chars, List.cons_append, scanTokens, if_neg blank, if_neg quote, if_pos start]
    simp only [run, scanTokens_skip others.length, List.drop_left]
    rw [← chars, String.ofList_toList]
    rfl
  refused broken := absurd trivial broken

theorem scans_quote (s : String) : Scans (fun _ => True) (quote s) ('\r' ∉ s.toList) [.literal s] where
  read unbroken rest _ := by
    have split : s.toList.flatMap quotedChar ++ '"' :: rest = (s.toList.flatMap quotedChar ++ ['"']) ++ rest :=
      List.append_cons ..
    have length : (s.toList.flatMap quotedChar ++ '"' :: rest).length - rest.length =
        (s.toList.flatMap quotedChar ++ ['"']).length := by
      simp only [List.length_append, List.length_cons, List.length_nil]
      omega
    rw [quote_toList, List.cons_append, List.append_assoc, List.singleton_append, scanTokens, if_neg (by decide),
      if_pos rfl, scanLiteral_quoted, if_neg unbroken]
    simp only [Option.bind_eq_bind, Option.bind_some, String.ofList_toList]
    rw [length, scanTokens_skip, split, List.drop_left]
    rfl
  refused broken rest _ := by
    rw [quote_toList, List.cons_append, List.append_assoc, List.singleton_append, scanTokens, if_neg (by decide),
      if_pos rfl, scanLiteral_quoted, if_pos (Classical.not_not.mp broken)]
    rfl

end EntityTypings.TypeScript
