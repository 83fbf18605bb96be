import EntityTypings.Json.Reader

/-!
# Skipping a value

A value that nobody asked for is passed over by its tokens alone: numbers of any size, any four
hexadecimal digits after `\u`, and any depth.
-/

namespace EntityTypings.Json

/-- The number of characters that the escape behind a backslash takes. -/
def escapeLength : List Char → Except Stop Nat
  | [] => stopAt .endInString []
  | 'u' :: s => do
    let _ ← codeUnit s
    .ok 5
  | e :: s => if (escapeLetter? e).isSome then .ok 1 else stopPast .invalidEscape (e :: s)

/-- Skips a string behind its opening quote. The first `n` characters belong to an escape that has been
read already. -/
def skipChars : Nat → List Char → Except Stop (List Char)
  | _, [] => stopAt .endInString []
  | n + 1, _ :: s => skipChars n s
  | 0, c :: s =>
    if c = '"' then .ok s
    else if c = '\\' then do
      let n ← escapeLength s
      skipChars n s
    else if c.toNat < 0x20 then stopAt .controlCharacter (c :: s)
    else skipChars 0 s

/-- Skips at least one digit. -/
def skipDigits (s : List Char) : Except Stop (List Char) :=
  if startsWithDigit s then .ok (s.dropWhile Char.isDigit) else stopPast .invalidNumber s

def skipExponent : List Char → Except Stop (List Char)
  | '+' :: s => skipDigits s
  | '-' :: s => skipDigits s
  | s => skipDigits s

def skipScale : List Char → Except Stop (List Char)
  | 'e' :: s => skipExponent s
  | 'E' :: s => skipExponent s
  | s => .ok s

def skipFraction : List Char → Except Stop (List Char)
  | '.' :: s => do skipScale (← skipDigits s)
  | s => skipScale s

/-- Skips a number behind its sign. -/
def skipUnsigned : List Char → Except Stop (List Char)
  | '0' :: s => if startsWithDigit s then stopPast .invalidNumber s else skipFraction s
  | s => do skipFraction (← skipDigits s)

def skipNumber : List Char → Except Stop (List Char)
  | '-' :: s => skipUnsigned s
  | s => skipUnsigned s

mutual

/-- Skips a value. Each call takes one step of the first argument. -/
def skipValue : Nat → List Char → Except Stop (List Char)
  | 0, s => stopPast .endInValue s
  | steps + 1, s =>
    match skipSpace s with
    | [] => stopPast .endInValue []
    | c :: t =>
      if c = 'n' then scanWord ['u', 'l', 'l'] t
      else if c = 't' then scanWord ['r', 'u', 'e'] t
      else if c = 'f' then scanWord ['a', 'l', 's', 'e'] t
      else if c = '"' then skipChars 0 t
      else if c = '-' ∨ c.isDigit then skipNumber (c :: t)
      else if c = '[' then skipFirstItem steps t
      else if c = '\x7b' then skipFirstMember steps t
      else stopPast .expectedValue (c :: t)

def skipFirstItem : Nat → List Char → Except Stop (List Char)
  | 0, s => stopPast .endInList s
  | steps + 1, s =>
    match skipSpace s with
    | [] => stopPast .endInList []
    | ']' :: rest => .ok rest
    | t => do skipItems steps (← skipValue steps t)

def skipItems : Nat → List Char → Except Stop (List Char)
  | 0, s => stopPast .endInList s
  | steps + 1, s =>
    match skipSpace s with
    | [] => stopPast .endInList []
    | ']' :: rest => .ok rest
    | ',' :: t => do skipItems steps (← skipValue steps t)
    | t => stopPast .expectedListCommaOrEnd t

def skipFirstMember : Nat → List Char → Except Stop (List Char)
  | 0, s => stopPast .endInObject s
  | steps + 1, s =>
    match skipSpace s with
    | '\x7d' :: rest => .ok rest
    | t => skipMember steps t

def skipMembers : Nat → List Char → Except Stop (List Char)
  | 0, s => stopPast .endInObject s
  | steps + 1, s =>
    match skipSpace s with
    | [] => stopPast .endInObject []
    | '\x7d' :: rest => .ok rest
    | ',' :: t => skipMember steps t
    | t => stopPast .expectedObjectCommaOrEnd t

def skipMember : Nat → List Char → Except Stop (List Char)
  | 0, s => stopPast .endInObject s
  | steps + 1, s =>
    match skipSpace s with
    | [] => stopPast .endInObject []
    | '"' :: t => do
      let rest ← scanColon (← skipChars 0 t)
      skipMembers steps (← skipValue steps rest)
    | t => stopPast .keyNotString t

end

end EntityTypings.Json
