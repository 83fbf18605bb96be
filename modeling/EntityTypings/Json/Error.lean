import EntityTypings.Json.Writer
import EntityTypings.Text.Escaped

/-!
# What can be wrong with JSON

A text can be malformed (`Fault`), and a value can have another shape than the record it is read as
(`Mismatch`). A `Problem` is one of the two; an `Error` adds the place in the text, where one is known.
-/

namespace EntityTypings.Json

/-- A line, counted from one, and the number of bytes before the place on that line. -/
structure Location where
  line : Nat
  column : Nat
  deriving DecidableEq, Repr

namespace Location

def start : Location := ⟨1, 0⟩

def step (l : Location) (c : Char) : Location :=
  if c = '\n' then ⟨l.line + 1, 0⟩ else ⟨l.line, l.column + c.utf8Size⟩

/-- The location `n` bytes further on in a text; a place inside a character counts the bytes before it. -/
def advance (l : Location) : Nat → List Char → Location
  | _, [] => l
  | n, c :: s =>
    if c.utf8Size ≤ n then advance (l.step c) (n - c.utf8Size) s else ⟨l.line, l.column + n⟩

end Location

inductive Fault where
  | endInValue
  | endInList
  | endInObject
  | endInString
  | expectedValue
  | expectedIdent
  | expectedColon
  | expectedListCommaOrEnd
  | expectedObjectCommaOrEnd
  | keyNotString
  | trailingComma
  | trailingCharacters
  | invalidEscape
  | invalidNumber
  | numberOutOfRange
  | loneSurrogate
  | unfinishedSurrogatePair
  | controlCharacter
  | tooDeep
  deriving DecidableEq, Repr

def Fault.message : Fault → String
  | .endInValue => "EOF while parsing a value"
  | .endInList => "EOF while parsing a list"
  | .endInObject => "EOF while parsing an object"
  | .endInString => "EOF while parsing a string"
  | .expectedValue => "expected value"
  | .expectedIdent => "expected ident"
  | .expectedColon => "expected `:`"
  | .expectedListCommaOrEnd => "expected `,` or `]`"
  | .expectedObjectCommaOrEnd => "expected `,` or `\x7d`"
  | .keyNotString => "key must be a string"
  | .trailingComma => "trailing comma"
  | .trailingCharacters => "trailing characters"
  | .invalidEscape => "invalid escape"
  | .invalidNumber => "invalid number"
  | .numberOutOfRange => "number out of range"
  | .loneSurrogate => "lone leading surrogate in hex escape"
  | .unfinishedSurrogatePair => "unexpected end of hex escape"
  | .controlCharacter => "control character (\\u0000-\\u001F) found while parsing a string"
  | .tooDeep => "recursion limit exceeded"

/-- A value, as far as a message tells it. -/
inductive Found where
  | null
  | bool (b : Bool)
  | num (n : Number)
  | str (s : String)
  | list
  | object

def Value.found : Value → Found
  | .null => .null
  | .bool b => .bool b
  | .num n => .num n
  | .str s => .str s
  | .arr _ => .list
  | .obj _ => .object

def Found.message : Found → String
  | .null => "null"
  | .bool b => "boolean `" ++ (if b then "true" else "false") ++ "`"
  | .num (.int n) => "integer `" ++ String.ofList (writtenInt n) ++ "`"
  | .num (.float x) => "floating point `" ++ String.ofList (Number.float x).written ++ "`"
  | .str s => "string " ++ Text.shown s
  | .list => "sequence"
  | .object => "map"

/-- The form that a record asks for. -/
inductive Expected where
  | string
  | boolean
  | list
  | object
  | record (name : String)
  | timestamp
  deriving DecidableEq, Repr

def Expected.message : Expected → String
  | .string => "a string"
  | .boolean => "a boolean"
  | .list => "a sequence"
  | .object => "a map"
  | .record name => "struct " ++ name
  | .timestamp => "an RFC 3339 formatted date and time string"

inductive Mismatch where
  /-- A value of another form. -/
  | wrongForm (found : Found) (expected : Expected)
  /-- A part of a record that must be an object and is none. -/
  | notObject (part : String) (found : Value)
  | missingField (name : String)
  | repeatedField (name : String)
  /-- A list too short for a record whose fields stand in a fixed order. -/
  | tooShort (length : Nat) (record : String) (fields : Nat)
  | tooLong (length : Nat)
  /-- A value that is none of the forms of an alternative. -/
  | noForm (name : String)
  /-- A text that the rules of its field refuse. -/
  | refused (reason : String)

def Mismatch.message : Mismatch → String
  | .wrongForm found expected => "invalid type: " ++ found.message ++ ", expected " ++ expected.message
  | .notObject part found => part ++ " must be a JSON object, found " ++ found.write
  | .missingField name => "missing field `" ++ name ++ "`"
  | .repeatedField name => "duplicate field `" ++ name ++ "`"
  | .tooShort length record fields =>
    "invalid length " ++ toString length ++ ", expected struct " ++ record ++ " with " ++
      toString fields ++ (if fields = 1 then " element" else " elements")
  | .tooLong length => "invalid length " ++ toString length ++ ", expected fewer elements in array"
  | .noForm name => "data did not match any variant of untagged enum " ++ name
  | .refused reason => reason

inductive Problem where
  | malformed (fault : Fault)
  | mismatch (reason : Mismatch)

def Problem.message : Problem → String
  | .malformed fault => fault.message
  | .mismatch reason => reason.message

structure Error where
  problem : Problem
  location : Option Location

def Error.message (e : Error) : String :=
  e.problem.message ++ match e.location with
    | none => ""
    | some l => " at line " ++ toString l.line ++ " column " ++ toString l.column

end EntityTypings.Json
