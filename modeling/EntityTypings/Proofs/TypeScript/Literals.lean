import EntityTypings.Json.Scan
import EntityTypings.Proofs.TypeScript.Lines

/-!
# What a literal denotes

`literalValue?` reads a text as a string literal in double quotes, by the rules of ECMAScript. What `quote` writes is
such a literal, and denotes the quoted text, unless the text has a carriage return: `quote_denotes_iff`. Where a
literal ends does not depend on what follows, `quote_append_inj`, nor does where a key ends, `propertyKey_append_inj`,
so that different names have different keys, `propertyKey_injective`.
-/

namespace EntityTypings.TypeScript

open Json (hexValue? fourHex? startsWithDigit)

/-! ### Reading a literal -/

/-- A code point as a text. The halves of surrogate pairs stand for no character. -/
def codePoint? (n : Nat) : Option (List Char) := if n.isValidChar then some [Char.ofNat n] else none

/-- The value of the hexadecimal digits in front of a closing brace, and their number. -/
def bracedHex? (value count : Nat) : List Char → Option (Nat × Nat)
  | [] => none
  | c :: s =>
    if c = '\x7d' then if count = 0 then none else some (value, count)
    else do bracedHex? (value * 16 + (← hexValue? c)) (count + 1) s

def isLineTerminator (c : Char) : Bool := c == '\n' || c == '\r' || c == '\u2028' || c == '\u2029'

/-- The character that a letter behind a backslash stands for. -/
def escapedLetter (c : Char) : Char :=
  match c with
  | 'b' => '\x08'
  | 't' => '\t'
  | 'n' => '\n'
  | 'v' => '\x0b'
  | 'f' => '\x0c'
  | 'r' => '\r'
  | c => c

/-- The text that an escape behind its backslash stands for, and the number of characters it takes. A line that is
continued stands for nothing; octal escapes are not allowed. -/
def literalEscape? : List Char → Option (List Char × Nat)
  | [] => none
  | 'u' :: '\x7b' :: s => do
    let (n, count) ← bracedHex? 0 0 s
    some (← codePoint? n, count + 3)
  | 'u' :: s => do some (← codePoint? (← fourHex? s), 5)
  | 'x' :: a :: b :: _ => do some (← codePoint? ((← hexValue? a) * 16 + (← hexValue? b)), 3)
  | 'x' :: _ => none
  | '0' :: s => if startsWithDigit s then none else some (['\x00'], 1)
  | '\r' :: '\n' :: _ => some ([], 2)
  | c :: _ =>
    if c.isDigit then none else if isLineTerminator c then some ([], 1) else some ([escapedLetter c], 1)

/-- Reads a literal behind its opening quote. The first `n` characters belong to an escape that has been read
already. -/
def scanLiteral : Nat → List Char → Option (List Char × List Char)
  | _, [] => none
  | n + 1, _ :: s => scanLiteral n s
  | 0, c :: s =>
    if c = '"' then some ([], s)
    else if c = '\\' then do
      let (value, n) ← literalEscape? s
      let (text, rest) ← scanLiteral n s
      some (value ++ text, rest)
    else if c = '\n' ∨ c = '\r' then none
    else do
      let (text, rest) ← scanLiteral 0 s
      some (c :: text, rest)

/-- What a text denotes that is one literal. -/
def literalValue? (text : String) : Option String :=
  match text.toList with
  | '"' :: s =>
    match scanLiteral 0 s with
    | some (value, []) => some (String.ofList value)
    | _ => none
  | _ => none

/-- The name that a member's key denotes. -/
def memberName? (key : String) : Option String := if isIdentifier key then some key else literalValue? key

example : literalValue? "\"\\u\x7b1F600\x7d\\x41\\u00e9\\v\\'\"" = some "😀Aé\x0b'" := by decide

example : literalValue? "\"\\01\"" = none ∧ literalValue? "\"a\"b\"" = none := by decide

/-! ### Quoted texts -/

theorem scanLiteral_quotedChar (c : Char) (rest : List Char) :
    scanLiteral 0 (quotedChar c ++ rest) =
      if c = '\r' then none else (scanLiteral 0 rest).map fun p => (c :: p.1, p.2) := by
  have done {r : Option (List Char × List Char)} :
      (r >>= fun p => some (c :: p.1, p.2)) = r.map fun p => (c :: p.1, p.2) := by
    cases r <;> rfl
  have letter (l : Char) (escaped : literalEscape? (l :: rest) = some ([c], 1)) :
      scanLiteral 0 ('\\' :: l :: rest) = (scanLiteral 0 rest).map fun p => (c :: p.1, p.2) := by
    rw [scanLiteral, if_neg (by decide), if_pos rfl, escaped]
    exact done
  unfold quotedChar
  iterate 3
    split
    next same =>
      subst same
      exact letter _ rfl
  next quote backslash visible =>
    rw [List.singleton_append, scanLiteral, if_neg quote, if_neg backslash]
    by_cases broken : c = '\r'
    · rw [if_pos (.inr broken), if_pos broken]
    · rw [if_neg (not_or.mpr ⟨visible, broken⟩), if_neg broken]
      exact done

theorem scanLiteral_quoted (s : List Char) (rest : List Char) :
    scanLiteral 0 (s.flatMap quotedChar ++ '"' :: rest) = if '\r' ∈ s then none else some (s, rest) := by
  induction s with
  | nil => rfl
  | cons c s ih =>
    rw [List.flatMap_cons, List.append_assoc, scanLiteral_quotedChar, ih]
    by_cases broken : c = '\r' <;> by_cases later : '\r' ∈ s <;> simp [broken, later, eq_comm]

theorem quote_toList (s : String) : (quote s).toList = '"' :: (s.toList.flatMap quotedChar ++ ['"']) := by
  rw [quote, String.toList_ofList, List.cons_append]

theorem literalValue?_quote (s : String) :
    literalValue? (quote s) = if '\r' ∈ s.toList then none else some s := by
  unfold literalValue?
  simp only [quote_toList, scanLiteral_quoted]
  by_cases broken : '\r' ∈ s.toList
  · simp only [if_pos broken]
  · simp only [if_neg broken, String.ofList_toList]

theorem quote_not_identifier (s : String) : isIdentifier (quote s) = false := by
  unfold isIdentifier
  simp only [quote_toList]
  rfl

theorem identifier_unbroken {name : String} (plain : isIdentifier name = true) : '\r' ∉ name.toList := by
  obtain ⟨c, rest, chars, _, parts⟩ := identifier_chars plain
  intro broken
  rw [chars] at broken
  exact absurd (parts '\r' broken) (by decide)

theorem memberName?_propertyKey (s : String) :
    memberName? (propertyKey s) = if '\r' ∈ s.toList then none else some s := by
  unfold propertyKey
  split
  next plain =>
    rw [memberName?, if_pos plain, if_neg (identifier_unbroken plain)]
  · rw [memberName?, quote_not_identifier, if_neg Bool.false_ne_true, literalValue?_quote]

/-- A quoted text is a literal, and denotes the text, exactly if the text has no carriage return; so does the key of
a member with such a name. -/
theorem quote_denotes_iff (s : String) :
    (literalValue? (quote s) = some s ↔ '\r' ∉ s.toList) ∧
      ((∃ value, literalValue? (quote s) = some value) ↔ '\r' ∉ s.toList) ∧
      (memberName? (propertyKey s) = some s ↔ '\r' ∉ s.toList) := by
  rw [literalValue?_quote, memberName?_propertyKey]
  by_cases broken : '\r' ∈ s.toList <;> simp [broken]

/-- A carriage return is written as it is, which ends the line inside the literal. -/
theorem returned_quote_malformed : quote "a\rb" = "\"a\rb\"" ∧ literalValue? (quote "a\rb") = none := by decide

/-! ### Where a literal ends -/

theorem quotedChar_cancel {c d : Char} {u v : List Char} (same : quotedChar c ++ u = quotedChar d ++ v) :
    c = d ∧ u = v := by
  unfold quotedChar at same
  grind

theorem quotedChar_ne_quote (c : Char) (u v : List Char) : quotedChar c ++ u ≠ '"' :: v := by
  unfold quotedChar
  grind

theorem quotedChars_cancel {s t u v : List Char}
    (same : s.flatMap quotedChar ++ '"' :: u = t.flatMap quotedChar ++ '"' :: v) : s = t ∧ u = v := by
  induction s generalizing t with
  | nil =>
    cases t with
    | nil => exact ⟨rfl, (List.cons.inj same).2⟩
    | cons d t =>
      rw [List.flatMap_cons, List.append_assoc] at same
      exact absurd same.symm (quotedChar_ne_quote d _ u)
  | cons c s ih =>
    rw [List.flatMap_cons, List.append_assoc] at same
    cases t with
    | nil => exact absurd same (quotedChar_ne_quote c _ v)
    | cons d t =>
      rw [List.flatMap_cons, List.append_assoc] at same
      obtain ⟨rfl, behind⟩ := quotedChar_cancel same
      obtain ⟨rfl, rest⟩ := ih behind
      exact ⟨rfl, rest⟩

/-- Of two texts that start with literals the literals and what follows them agree. -/
theorem quote_append_inj {a b : String} {u v : List Char}
    (same : (quote a).toList ++ u = (quote b).toList ++ v) : a = b ∧ u = v := by
  simp only [quote_toList, List.cons_append, List.append_assoc, List.cons.injEq, true_and] at same
  obtain ⟨chars, rest⟩ := quotedChars_cancel same
  exact ⟨String.toList_inj.mp chars, rest⟩

/-! ### Where a key ends -/

/-- Equal texts agree in front of the first character outside a class, and from there on. -/
theorem cancel_class {p : Char → Bool} {s t u v : List Char} (within : ∀ c ∈ s, p c = true)
    (within' : ∀ c ∈ t, p c = true) (stops : ∀ c ∈ u.head?, p c = false) (stops' : ∀ c ∈ v.head?, p c = false)
    (same : s ++ u = t ++ v) : s = t ∧ u = v := by
  have front {w rest : List Char} (within : ∀ c ∈ w, p c = true) (stops : ∀ c ∈ rest.head?, p c = false) :
      (w ++ rest).takeWhile p = w := by
    rw [List.takeWhile_append_of_pos within]
    cases rest with
    | nil => rw [List.takeWhile_nil, List.append_nil]
    | cons c rest => rw [List.takeWhile_cons_of_neg (by simp [stops c rfl]), List.append_nil]
  have fronts : s = t := by rw [← front within stops, same, front within' stops']
  subst fronts
  exact ⟨rfl, List.append_cancel_left same⟩

/-- A text that a key can stand in front of. -/
def EndsKey (rest : List Char) : Prop := ∀ c ∈ rest.head?, isIdentifierPart c = false

theorem identifier_ne_quote {name s : String} (plain : isIdentifier name = true) (u v : List Char) :
    name.toList ++ u ≠ (quote s).toList ++ v := by
  obtain ⟨c, rest, chars, start, _⟩ := identifier_chars plain
  rw [chars, quote_toList]
  intro same
  obtain rfl : c = '"' := (List.cons.inj same).1
  exact absurd start (by decide)

/-- Of two texts that start with keys the names and what follows the keys agree. -/
theorem propertyKey_append_inj {a b : String} {u v : List Char} (ends : EndsKey u) (ends' : EndsKey v)
    (same : (propertyKey a).toList ++ u = (propertyKey b).toList ++ v) : a = b ∧ u = v := by
  have parts {name : String} (plain : isIdentifier name = true) : ∀ c ∈ name.toList, isIdentifierPart c = true := by
    obtain ⟨c, s, chars, _, parts⟩ := identifier_chars plain
    rwa [chars]
  unfold propertyKey at same
  split at same <;> split at same
  next plain plain' =>
    obtain ⟨names, rest⟩ := cancel_class (parts plain) (parts plain') ends ends' same
    exact ⟨String.toList_inj.mp names, rest⟩
  next plain _ => exact absurd same (identifier_ne_quote plain u v)
  next _ plain' => exact absurd same.symm (identifier_ne_quote plain' v u)
  · exact quote_append_inj same

theorem propertyKey_injective {a b : String} (same : propertyKey a = propertyKey b) : a = b := by
  have nothing : EndsKey [] := fun c first => by cases first
  have texts : (propertyKey a).toList ++ [] = (propertyKey b).toList ++ [] := by rw [same]
  exact (propertyKey_append_inj nothing nothing texts).1

end EntityTypings.TypeScript
