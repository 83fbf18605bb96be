import EntityTypings.Settings.Timestamp
import EntityTypings.Text.Blank

/-!
# Reading timestamps

Timestamps are read leniently: one or two digits where two are usual, blanks before every part, `T` in
either case or a space between date and time. Parts are judged from left to right, and the first failure
wins; whether the date exists is judged last.
-/

namespace EntityTypings.Timestamp

inductive Fault where
  | tooShort
  | invalid
  | leftover
  | outOfRange
  | impossible
  deriving DecidableEq, Repr

def Fault.message : Fault → String
  | .tooShort => "premature end of input"
  | .invalid => "input contains invalid characters"
  | .leftover => "trailing input"
  | .outOfRange => "input is out of range"
  | .impossible => "no possible date and time matching input"

open Text (trimStart isBlank)

def digitValue (c : Char) : Nat := c.toNat - '0'.toNat

def digitsValue (digits : List Char) : Nat := digits.foldl (fun n c => n * 10 + digitValue c) 0

/-- Reads one to `most` digits. -/
def readDigits (most : Nat) (s : List Char) : Except Fault (Nat × List Char) :=
  match s with
  | [] => .error .tooShort
  | c :: _ =>
    if !c.isDigit then .error .invalid
    else
      let digits := (s.take most).takeWhile Char.isDigit
      if 0x8000000000000000 ≤ digitsValue digits then .error .outOfRange
      else .ok (digitsValue digits, s.drop digits.length)

/-- Reads a part of two digits at most, within bounds. -/
def readPart (least greatest : Nat) (s : List Char) : Except Fault (Nat × List Char) := do
  let (n, rest) ← readDigits 2 (trimStart s)
  if n < least ∨ greatest < n then .error .outOfRange else .ok (n, rest)

/-- Reads a year: up to four digits, or any number of them behind a sign. -/
def readYear (s : List Char) : Except Fault (Int × List Char) := do
  let (year, rest) ← match trimStart s with
    | '-' :: t => do
      let (n, rest) ← readDigits t.length t
      pure (-(n : Int), rest)
    | '+' :: t => do
      let (n, rest) ← readDigits t.length t
      pure ((n : Int), rest)
    | t => do
      let (n, rest) ← readDigits 4 t
      pure ((n : Int), rest)
  if year < -0x80000000 ∨ 0x80000000 ≤ year then .error .outOfRange else .ok (year, rest)

def readMark (mark : Char) (s : List Char) : Except Fault (List Char) :=
  match trimStart s with
  | [] => .error .tooShort
  | c :: rest => if c = mark then .ok rest else .error .invalid

/-- Reads the mark between date and time. -/
def readSeparator : List Char → Except Fault (List Char)
  | [] => .error .tooShort
  | c :: rest => if c = 'T' ∨ c = 't' ∨ c = ' ' then .ok rest else .error .invalid

/-- Reads a fraction of a second in nanoseconds; digits after the ninth are ignored. -/
def readFraction : List Char → Except Fault (Nat × List Char)
  | '.' :: s => do
    let (n, rest) ← readDigits 9 s
    .ok (n * Nat.pow 10 (9 - (s.length - rest.length)), rest.dropWhile Char.isDigit)
  | s => .ok (0, s)

/-- Reads two digits of an offset. -/
def readTwoDigits (s : List Char) : Except Fault (Nat × Nat × List Char) :=
  match s with
  | [] => .error .tooShort
  | [c] => if c.utf8Size < 2 then .error .tooShort else .error .invalid
  | c :: d :: rest =>
    if c.isDigit ∧ d.isDigit then .ok (digitValue c, digitValue d, rest) else .error .invalid

/-- Reads hours and minutes of an offset behind its sign, in seconds. -/
def readOffsetTime (s : List Char) : Except Fault (Int × List Char) := do
  let (h, hh, s) ← readTwoDigits s
  let (m, mm, rest) ← readTwoDigits (s.dropWhile fun c => c == ':' || isBlank c)
  if 6 ≤ m then .error .outOfRange
  else .ok (((h * 10 + hh) * 3600 + (m * 10 + mm) * 60 : Nat), rest)

/-- Reads an offset from UTC, in seconds. -/
def readOffset (s : List Char) : Except Fault (Int × List Char) :=
  match trimStart s with
  | [] => .error .tooShort
  | c :: t =>
    if ((c :: t).take 3).map Char.toUpper = ['U', 'T', 'C'] then .ok (0, t.drop 2)
    else if c = 'Z' ∨ c = 'z' then .ok (0, t)
    else if c = '+' then readOffsetTime t
    else if c = '-' ∨ c = '\u2212' then do
      let (offset, rest) ← readOffsetTime t
      .ok (-offset, rest)
    else .error .invalid

/-- The years that have dates. -/
def hasYear (year : Int) : Bool := -262143 ≤ year && year ≤ 262142

/-- The point in time of a date, a time of day and an offset, all parts within their bounds. -/
def ofParts (date : Date) (hour minute second nanoseconds : Nat) (offset : Int) :
    Except Fault Timestamp :=
  if !hasYear date.year ∨ Date.daysInMonth date.year date.month < date.day then .error .outOfRange
  else if secondsPerDay ≤ offset.natAbs then .error .outOfRange
  else
    let leap := second = 60
    let ofDay : Nat := hour * 3600 + minute * 60 + if leap then 59 else second
    let seconds := date.toDays * secondsPerDay + ofDay - offset
    if hasYear (Date.ofDays (seconds / secondsPerDay)).year then
      .ok ⟨seconds, nanoseconds + if leap then 1000000000 else 0⟩
    else .error .impossible

def read (text : String) : Except Fault Timestamp := do
  let (year, s) ← readYear text.toList
  let (month, s) ← readPart 1 12 (← readMark '-' s)
  let (day, s) ← readPart 1 31 (← readMark '-' s)
  let (hour, s) ← readPart 0 23 (← readSeparator s)
  let (minute, s) ← readPart 0 59 (← readMark ':' s)
  let (second, s) ← readPart 0 60 (← readMark ':' s)
  let (nanoseconds, s) ← readFraction s
  let (offset, s) ← readOffset s
  if trimStart s ≠ [] then .error .leftover
  else ofParts ⟨year, month, day⟩ hour minute second nanoseconds offset

end EntityTypings.Timestamp
