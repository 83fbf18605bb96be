import EntityTypings.Json.Scan

/-!
# Reading a JSON text

`Value.read` reads a whole text as one value. Lists and objects nest at most `maxDepth` deep.
-/

namespace EntityTypings.Json

def maxDepth : Nat := 127

mutual

/-- Reads a value, its lists and objects nested at most `depth` deep. Each call takes one step of the
first argument. -/
def readValue : Nat → Nat → List Char → Except Stop (Read Value)
  | 0, _, s => stopPast .endInValue s
  | steps + 1, depth, s =>
    match skipSpace s with
    | [] => stopPast .endInValue []
    | c :: t =>
      if c = 'n' then do .ok (.null, ← scanWord ['u', 'l', 'l'] t)
      else if c = 't' then do .ok (.bool true, ← scanWord ['r', 'u', 'e'] t)
      else if c = 'f' then do .ok (.bool false, ← scanWord ['a', 'l', 's', 'e'] t)
      else if c = '"' then do
        let (text, rest) ← scanString t
        .ok (.str text, rest)
      else if c = '-' ∨ c.isDigit then do
        let (n, rest) ← scanNumber (c :: t)
        .ok (.num n, rest)
      else if c = '[' then
        match depth with
        | 0 => stopPast .tooDeep (c :: t)
        | depth + 1 => do
          let (items, rest) ← readFirstItem steps depth t
          .ok (.arr items, rest)
      else if c = '\x7b' then
        match depth with
        | 0 => stopPast .tooDeep (c :: t)
        | depth + 1 => do
          let (pairs, rest) ← readFirstMember steps depth t
          .ok (.ofPairs pairs, rest)
      else stopPast .expectedValue (c :: t)

/-- Reads the items of a list behind its opening bracket. -/
def readFirstItem : Nat → Nat → List Char → Except Stop (Read (List Value))
  | 0, _, s => stopPast .endInList s
  | steps + 1, depth, s =>
    match skipSpace s with
    | [] => stopPast .endInList []
    | ']' :: rest => .ok ([], rest)
    | t => do
      let (v, rest) ← readValue steps depth t
      let (vs, rest) ← readItems steps depth rest
      .ok (v :: vs, rest)

/-- Reads the items of a list behind another item. -/
def readItems : Nat → Nat → List Char → Except Stop (Read (List Value))
  | 0, _, s => stopPast .endInList s
  | steps + 1, depth, s =>
    match skipSpace s with
    | [] => stopPast .endInList []
    | ']' :: rest => .ok ([], rest)
    | ',' :: t =>
      match skipSpace t with
      | [] => stopPast .endInValue []
      | ']' :: u => stopPast .trailingComma (']' :: u)
      | u => do
        let (v, rest) ← readValue steps depth u
        let (vs, rest) ← readItems steps depth rest
        .ok (v :: vs, rest)
    | t => stopPast .expectedListCommaOrEnd t

/-- Reads the members of an object behind its opening brace. -/
def readFirstMember : Nat → Nat → List Char → Except Stop (Read (List (String × Value)))
  | 0, _, s => stopPast .endInObject s
  | steps + 1, depth, s =>
    match skipSpace s with
    | [] => stopPast .endInObject []
    | '\x7d' :: rest => .ok ([], rest)
    | '"' :: t => readMember steps depth t
    | t => stopPast .keyNotString t

/-- Reads the members of an object behind another member. -/
def readMembers : Nat → Nat → List Char → Except Stop (Read (List (String × Value)))
  | 0, _, s => stopPast .endInObject s
  | steps + 1, depth, s =>
    match skipSpace s with
    | [] => stopPast .endInObject []
    | '\x7d' :: rest => .ok ([], rest)
    | ',' :: t =>
      match skipSpace t with
      | [] => stopPast .endInValue []
      | '\x7d' :: u => stopPast .trailingComma ('\x7d' :: u)
      | '"' :: u => readMember steps depth u
      | u => stopPast .keyNotString u
    | t => stopPast .expectedObjectCommaOrEnd t

/-- Reads a member behind the opening quote of its name, and the members after it. -/
def readMember : Nat → Nat → List Char → Except Stop (Read (List (String × Value)))
  | 0, _, s => stopPast .endInObject s
  | steps + 1, depth, s => do
    let (name, rest) ← scanString s
    let rest ← scanColon rest
    let (v, rest) ← readValue steps depth rest
    let (pairs, rest) ← readMembers steps depth rest
    .ok ((name, v) :: pairs, rest)

end

/-- Nothing but space may follow a whole text's value. -/
def expectEnd {α : Type} (value : α) (rest : List Char) : Except Stop α :=
  match skipSpace rest with
  | [] => .ok value
  | t => stopPast .trailingCharacters t

/-- Each character is looked at in at most three calls. -/
def stepsFor (s : List Char) : Nat := 3 * s.length + 3

/-- Reads a text as one value. -/
def Value.read (text : String) : Except Error Value :=
  let s := text.toList
  ((readValue (stepsFor s) maxDepth s).bind fun (v, rest) => expectEnd v rest).mapError (Stop.error s)

end EntityTypings.Json
