import EntityTypings.Json.Error

/-!
# Tokens of a JSON text

Each reader takes the unread text and answers with what it read and the text after it, or with a
`Stop`. Strings and numbers are read here; `Json.Reader` and `Json.Skip` read whole values.
-/

namespace EntityTypings.Json

/-- Why reading stopped, the text unread at that point, and how many of its bytes had been looked at. -/
structure Stop where
  problem : Problem
  rest : List Char
  seen : Nat

def byteLength (s : List Char) : Nat := s.foldr (fun c n => c.utf8Size + n) 0

/-- The error in the text that a stop came from. -/
def Stop.error (text : List Char) (stop : Stop) : Error :=
  ⟨stop.problem, some (Location.start.advance (byteLength text - byteLength stop.rest + stop.seen) text)⟩

/-- What was read, and the text after it. -/
abbrev Read (α : Type) := α × List Char

/-- A stop in front of the unread text. -/
def stopAt {α : Type} (fault : Fault) (rest : List Char) : Except Stop α :=
  .error ⟨.malformed fault, rest, 0⟩

/-- A stop behind the first byte of the unread text. -/
def stopPast {α : Type} (fault : Fault) (rest : List Char) : Except Stop α :=
  .error ⟨.malformed fault, rest, 1⟩

/-! ### Space and words -/

def isSpace (c : Char) : Bool := c == ' ' || c == '\n' || c == '\t' || c == '\r'

def skipSpace (s : List Char) : List Char := s.dropWhile isSpace

/-- Reads the letters of a word. -/
def scanWord : List Char → List Char → Except Stop (List Char)
  | [], s => .ok s
  | _ :: _, [] => stopAt .endInValue []
  | w :: ws, c :: s => if c = w then scanWord ws s else stopPast .expectedIdent (c :: s)

/-- Reads the colon between a name and its value. -/
def scanColon (s : List Char) : Except Stop (List Char) :=
  match skipSpace s with
  | ':' :: rest => .ok rest
  | [] => stopPast .endInObject []
  | rest => stopPast .expectedColon rest

/-! ### Strings -/

def hexValue? (c : Char) : Option Nat :=
  if '0' ≤ c ∧ c ≤ '9' then some (c.toNat - '0'.toNat)
  else if 'a' ≤ c ∧ c ≤ 'f' then some (c.toNat - 'a'.toNat + 10)
  else if 'A' ≤ c ∧ c ≤ 'F' then some (c.toNat - 'A'.toNat + 10)
  else none

/-- The value of the four hexadecimal digits that a text starts with. -/
def fourHex? : List Char → Option Nat
  | a :: b :: c :: d :: _ => do
    let a ← hexValue? a
    let b ← hexValue? b
    let c ← hexValue? c
    let d ← hexValue? d
    some (((a * 16 + b) * 16 + c) * 16 + d)
  | _ => none

/-- The code unit after `\u`; four bytes are read before they are judged. -/
def codeUnit (s : List Char) : Except Stop Nat :=
  match fourHex? s with
  | some n => .ok n
  | none =>
    if 4 ≤ byteLength (s.take 4) then .error ⟨.malformed .invalidEscape, s, 4⟩
    else stopAt .endInString []

def isHighSurrogate (n : Nat) : Bool := 0xD800 ≤ n && n ≤ 0xDBFF

def isLowSurrogate (n : Nat) : Bool := 0xDC00 ≤ n && n ≤ 0xDFFF

/-- The character of the code unit `high` and the escape behind it, and the length of that escape. -/
def surrogatePair (high : Nat) : List Char → Except Stop (Char × Nat)
  | [] => stopAt .endInString []
  | '\\' :: 'u' :: s => do
    let low ← codeUnit s
    if isLowSurrogate low then
      .ok (Char.ofNat (0x10000 + (high - 0xD800) * 0x400 + (low - 0xDC00)), 6)
    else stopAt .loneSurrogate (s.drop 4)
  | '\\' :: [] => stopAt .endInString []
  | '\\' :: s => stopPast .unfinishedSurrogatePair s
  | s => stopPast .unfinishedSurrogatePair s

/-- The character of the escape behind `\u`, and the number of characters it takes. -/
def unicodeEscape (s : List Char) : Except Stop (Char × Nat) := do
  let n ← codeUnit s
  if isLowSurrogate n then stopAt .loneSurrogate (s.drop 4)
  else if isHighSurrogate n then
    let (c, length) ← surrogatePair n (s.drop 4)
    .ok (c, 4 + length)
  else .ok (Char.ofNat n, 4)

/-- The character that an escape letter other than `u` stands for. -/
def escapeLetter? (c : Char) : Option Char :=
  match c with
  | '"' => some '"'
  | '\\' => some '\\'
  | '/' => some '/'
  | 'b' => some '\x08'
  | 'f' => some '\x0c'
  | 'n' => some '\n'
  | 'r' => some '\r'
  | 't' => some '\t'
  | _ => none

/-- The character of the escape behind a backslash, and the number of characters it takes. -/
def escape : List Char → Except Stop (Char × Nat)
  | [] => stopAt .endInString []
  | 'u' :: s => do
    let (c, length) ← unicodeEscape s
    .ok (c, length + 1)
  | e :: s =>
    match escapeLetter? e with
    | some c => .ok (c, 1)
    | none => stopPast .invalidEscape (e :: s)

/-- Reads a string behind its opening quote. The first `n` characters belong to an escape that has
been read already. -/
def scanChars : Nat → List Char → Except Stop (Read (List Char))
  | _, [] => stopAt .endInString []
  | n + 1, _ :: s => scanChars n s
  | 0, c :: s =>
    if c = '"' then .ok ([], s)
    else if c = '\\' then do
      let (d, n) ← escape s
      let (text, rest) ← scanChars n s
      .ok (d :: text, rest)
    else if c.toNat < 0x20 then stopPast .controlCharacter (c :: s)
    else do
      let (text, rest) ← scanChars 0 s
      .ok (c :: text, rest)

def scanString (s : List Char) : Except Stop (Read String) := do
  let (text, rest) ← scanChars 0 s
  .ok (String.ofList text, rest)

/-! ### Numbers -/

def digitValue (c : Char) : Nat := c.toNat - '0'.toNat

def startsWithDigit (s : List Char) : Bool := s.head?.any Char.isDigit

def maxUnsigned : Nat := UInt64.size - 1

/-- Appends digits to a number for as long as it stays within the limit. -/
def absorb (limit n : Nat) : List Char → Nat × List Char
  | [] => (n, [])
  | c :: s =>
    if c.isDigit ∧ n * 10 + digitValue c ≤ limit then absorb limit (n * 10 + digitValue c) s
    else (n, c :: s)

def powerOfTen (n : Nat) : Float := Float.ofScientific 1 false n

/-- The double `x * 10 ^ e`, in one operation where the power is a finite double; `none` for infinity. -/
def scale (x : Float) (e : Int) : Option Float :=
  if e.natAbs ≤ 308 then
    if 0 ≤ e then
      let y := x * powerOfTen e.toNat
      if y.isInf then none else some y
    else some (x / powerOfTen e.natAbs)
  else if x == 0 then some x
  else if 0 ≤ e then none
  else scale (x / powerOfTen 308) (e + 308)
termination_by e.natAbs
decreasing_by omega

def signed (negative : Bool) (x : Float) : Float := if negative then -x else x

/-- The number `significand * 10 ^ e`, with the text behind it. -/
def double (negative : Bool) (significand : Nat) (e : Int) (rest : List Char) : Except Stop (Read Number) :=
  match scale (UInt64.ofNat significand).toFloat e with
  | some x => .ok (.float (signed negative x), rest)
  | none => stopAt .numberOutOfRange rest

/-- Reads an exponent behind its letter. One beyond 32 bits makes the number zero or too large. -/
def scanExponent (negative : Bool) (significand : Nat) (e : Int) (s : List Char) : Except Stop (Read Number) :=
  let (down, s) := match s with
    | '+' :: t => (false, t)
    | '-' :: t => (true, t)
    | _ => (false, s)
  if s.isEmpty then stopAt .endInValue []
  else if !startsWithDigit s then stopPast .invalidNumber s
  else
    let (x, rest) := absorb 0x7fffffff 0 s
    if startsWithDigit rest then
      if significand ≠ 0 ∧ !down then stopAt .numberOutOfRange (rest.drop 1)
      else .ok (.float (signed negative 0), rest.dropWhile Char.isDigit)
    else double negative significand (if down then e - x else e + x) rest

def scanScale (negative : Bool) (significand : Nat) (e : Int) : List Char → Except Stop (Read Number)
  | 'e' :: s => scanExponent negative significand e s
  | 'E' :: s => scanExponent negative significand e s
  | s => double negative significand e s

/-- Reads the digits behind a point. Digits that no longer fit the significand have no effect. -/
def scanFraction (negative : Bool) (significand : Nat) (e : Int) (s : List Char) : Except Stop (Read Number) :=
  if s.isEmpty then stopAt .endInValue []
  else if !startsWithDigit s then stopPast .invalidNumber s
  else
    let (m, rest) := absorb maxUnsigned significand s
    scanScale negative m (e - (s.length - rest.length : Nat)) (rest.dropWhile Char.isDigit)

/-- The integer with this sign. A negative zero and what falls below 64 bits are doubles. -/
def signedInteger (negative : Bool) (n : Nat) : Number :=
  if !negative then .int n
  else if n ≠ 0 ∧ n ≤ 0x8000000000000000 then .int (-n)
  else .float (signed true (UInt64.ofNat n).toFloat)

/-- Reads what follows the digits of an integer that fits 64 bits. -/
def scanAfterInteger (negative : Bool) (n : Nat) : List Char → Except Stop (Read Number)
  | '.' :: s => scanFraction negative n 0 s
  | 'e' :: s => scanExponent negative n 0 s
  | 'E' :: s => scanExponent negative n 0 s
  | s => .ok (signedInteger negative n, s)

/-- Reads a number behind its sign. Digits of an integer beyond 64 bits raise the exponent. -/
def scanUnsigned (negative : Bool) (s : List Char) : Except Stop (Read Number) :=
  match s with
  | [] => stopAt .endInValue []
  | c :: t =>
    if c = '0' then
      if startsWithDigit t then stopPast .invalidNumber t else scanAfterInteger negative 0 t
    else if c.isDigit then
      let (n, rest) := absorb maxUnsigned 0 s
      if startsWithDigit rest then
        let e := (rest.takeWhile Char.isDigit).length
        match rest.dropWhile Char.isDigit with
        | '.' :: u => scanFraction negative n e u
        | u => scanScale negative n e u
      else scanAfterInteger negative n rest
    else stopPast .invalidNumber s

def scanNumber : List Char → Except Stop (Read Number)
  | '-' :: s => scanUnsigned true s
  | s => scanUnsigned false s

end EntityTypings.Json
