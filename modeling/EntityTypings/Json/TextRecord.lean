import EntityTypings.Json.Skip

/-!
# Records read from text

A record can be read while its text is scanned, so that a problem with one of its fields has a place. An
object names its fields, a list has them in their order; unknown fields of an object are skipped.
-/

namespace EntityTypings.Json

/-- A field by its name, and how reading its value changes what was read of the record so far. -/
structure TextField (ρ : Type) where
  name : String
  read : List Char → ρ → Except Stop (Read ρ)

/-- A record `α`, collected in a `ρ`. A list that ends early and an object that lacks a field are judged
at the end. -/
structure TextRecord (ρ α : Type) where
  name : String
  start : ρ
  fields : List (TextField ρ)
  ofObject : ρ → Except Mismatch α
  ofList : ρ → Except Mismatch α

/-! ### Values of a known form -/

def mismatchAt {α : Type} (reason : Mismatch) (rest : List Char) : Except Stop α :=
  .error ⟨.mismatch reason, rest, 0⟩

/-- Stops at a value of another form. Scalars are read first, and may be malformed themselves. -/
def wrongFormAt {α : Type} (expected : Expected) (s : List Char) : Except Stop α :=
  match s with
  | [] => stopPast .endInValue []
  | c :: t =>
    if c = 'n' then do
      let rest ← scanWord ['u', 'l', 'l'] t
      mismatchAt (.wrongForm .null expected) rest
    else if c = 't' then do
      let rest ← scanWord ['r', 'u', 'e'] t
      mismatchAt (.wrongForm (.bool true) expected) rest
    else if c = 'f' then do
      let rest ← scanWord ['a', 'l', 's', 'e'] t
      mismatchAt (.wrongForm (.bool false) expected) rest
    else if c = '-' ∨ c.isDigit then do
      let (n, rest) ← scanNumber (c :: t)
      mismatchAt (.wrongForm (.num n) expected) rest
    else if c = '"' then do
      let (text, rest) ← scanString t
      mismatchAt (.wrongForm (.str text) expected) rest
    else if c = '[' then mismatchAt (.wrongForm .list expected) (c :: t)
    else if c = '\x7b' then mismatchAt (.wrongForm .object expected) (c :: t)
    else stopPast .expectedValue (c :: t)

def textBool (s : List Char) : Except Stop (Read Bool) :=
  match skipSpace s with
  | 't' :: t => do .ok (true, ← scanWord ['r', 'u', 'e'] t)
  | 'f' :: t => do .ok (false, ← scanWord ['a', 'l', 's', 'e'] t)
  | t => wrongFormAt .boolean t

def textString (expected : Expected) (s : List Char) : Except Stop (Read String) :=
  match skipSpace s with
  | '"' :: t => scanString t
  | t => wrongFormAt expected t

def textNullable {α : Type} (read : List Char → Except Stop (Read α)) (s : List Char) :
    Except Stop (Read (Option α)) :=
  match skipSpace s with
  | 'n' :: t => do .ok (none, ← scanWord ['u', 'l', 'l'] t)
  | t => do
    let (x, rest) ← read t
    .ok (some x, rest)

/-! ### Lists and objects of fields -/

/-- Reads the end of a list whose fields have all been read. -/
def endOfList {ρ : Type} (r : ρ) (s : List Char) : Except Stop (Read ρ) :=
  match skipSpace s with
  | [] => stopPast .endInList []
  | ']' :: rest => .ok (r, rest)
  | ',' :: t =>
    match skipSpace t with
    | ']' :: u => stopPast .trailingComma (']' :: u)
    | u => stopPast .trailingCharacters u
  | t => stopPast .trailingCharacters t

/-- Reads fields behind another field of a list. -/
def readFields {ρ : Type} : List (TextField ρ) → ρ → List Char → Except Stop (Read ρ)
  | [], r, s => endOfList r s
  | f :: fs, r, s =>
    match skipSpace s with
    | [] => stopPast .endInList []
    | ']' :: rest => .ok (r, rest)
    | ',' :: t =>
      match skipSpace t with
      | [] => stopPast .endInValue []
      | ']' :: u => stopPast .trailingComma (']' :: u)
      | u => do
        let (r, rest) ← f.read u r
        readFields fs r rest
    | t => stopPast .expectedListCommaOrEnd t

/-- Reads fields behind the opening bracket of a list. -/
def readFirstField {ρ : Type} (fields : List (TextField ρ)) (r : ρ) (s : List Char) :
    Except Stop (Read ρ) :=
  match fields with
  | [] => endOfList r s
  | f :: fs =>
    match skipSpace s with
    | [] => stopPast .endInList []
    | ']' :: rest => .ok (r, rest)
    | t => do
      let (r, rest) ← f.read t r
      readFields fs r rest

/-- A repeated name is reported behind it, or behind the brace if the object ends there. -/
def repeatedField {α : Type} (name : String) (rest : List Char) : Except Stop α :=
  mismatchAt (.repeatedField name) <|
    match skipSpace rest with
    | '\x7d' :: t => t
    | t => t

mutual

/-- Reads a field behind the opening quote of its name, and the fields after it. -/
def readNamedField {ρ : Type} (fields : List (TextField ρ)) :
    Nat → List String → ρ → List Char → Except Stop (Read ρ)
  | 0, _, _, s => stopPast .endInObject s
  | steps + 1, seen, r, s => do
    let (name, rest) ← scanString s
    match fields.find? (·.name == name) with
    | some f =>
      if name ∈ seen then repeatedField name rest
      else do
        let (r, rest) ← f.read (← scanColon rest) r
        readNamedFields fields steps (name :: seen) r rest
    | none => do
      let rest ← scanColon rest
      let rest ← skipValue (stepsFor rest) rest
      readNamedFields fields steps seen r rest

/-- Reads fields behind another field of an object. -/
def readNamedFields {ρ : Type} (fields : List (TextField ρ)) :
    Nat → List String → ρ → List Char → Except Stop (Read ρ)
  | 0, _, _, s => stopPast .endInObject s
  | steps + 1, seen, r, s =>
    match skipSpace s with
    | [] => stopPast .endInObject []
    | '\x7d' :: rest => .ok (r, rest)
    | ',' :: t =>
      match skipSpace t with
      | [] => stopPast .endInValue []
      | '\x7d' :: u => stopPast .trailingComma ('\x7d' :: u)
      | '"' :: u => readNamedField fields steps seen r u
      | u => stopPast .keyNotString u
    | t => stopPast .expectedObjectCommaOrEnd t

end

/-- Reads fields behind the opening brace of an object. -/
def readFirstNamedField {ρ : Type} (fields : List (TextField ρ)) (r : ρ) (s : List Char) :
    Except Stop (Read ρ) :=
  match skipSpace s with
  | [] => stopPast .endInObject []
  | '\x7d' :: rest => .ok (r, rest)
  | '"' :: t => readNamedField fields (stepsFor t) [] r t
  | t => stopPast .keyNotString t

def TextRecord.read {ρ α : Type} (record : TextRecord ρ α) (s : List Char) : Except Stop (Read α) :=
  match skipSpace s with
  | '[' :: t => do
    let (r, rest) ← readFirstField record.fields record.start t
    match record.ofList r with
    | .ok a => .ok (a, rest)
    | .error reason => mismatchAt reason rest
  | '\x7b' :: t => do
    let (r, rest) ← readFirstNamedField record.fields record.start t
    match record.ofObject r with
    | .ok a => .ok (a, rest)
    | .error reason => mismatchAt reason rest
  | t => wrongFormAt (.record record.name) t

/-- Reads a text that holds one record. -/
def TextRecord.readText {ρ α : Type} (record : TextRecord ρ α) (text : String) : Except Error α :=
  let s := text.toList
  ((record.read s).bind fun (a, rest) => expectEnd a rest).mapError (Stop.error s)

end EntityTypings.Json
