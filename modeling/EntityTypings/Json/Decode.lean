import EntityTypings.Json.Error

/-!
# Parts of records

Readers of the parts that records are made of. An absent part is `none`; for most parts a null counts as
absent.
-/

namespace EntityTypings.Json

def Value.wrongForm {α : Type} (v : Value) (expected : Expected) : Except Mismatch α :=
  .error (.wrongForm v.found expected)

def decodeString : Value → Except Mismatch String
  | .str s => .ok s
  | v => v.wrongForm .string

def decodeBool : Value → Except Mismatch Bool
  | .bool b => .ok b
  | v => v.wrongForm .boolean

/-- A part that may be absent or null. -/
def nullable {α : Type} (decode : Value → Except Mismatch α) : Option Value → Except Mismatch (Option α)
  | none => .ok none
  | some .null => .ok none
  | some v => (decode v).map some

/-- A part that may be absent but not null. -/
def absentable {α : Type} (decode : Value → Except Mismatch α) : Option Value → Except Mismatch (Option α)
  | none => .ok none
  | some v => (decode v).map some

/-- Any value other than null. -/
def present : Option Value → Option Value
  | some .null => none
  | part => part

/-- A list of strings; absent and null stand for the empty one. -/
def decodeNames : Option Value → Except Mismatch (List String)
  | none => .ok []
  | some .null => .ok []
  | some (.arr vs) => vs.mapM decodeString
  | some v => v.wrongForm .list

/-- A part that has to be an object. -/
def objectPart {α : Type} (part : String) (decode : List (String × Value) → Except Mismatch α) :
    Value → Except Mismatch α
  | .obj members => decode members
  | v => .error (.notObject part v)

/-- Refuses a list with more items than a record has fields. -/
def atMost (fields : Nat) (items : List Value) : Except Mismatch Unit :=
  if fields < items.length then .error (.tooLong items.length) else .ok ()

/-- A record whose only field is a text. -/
structure Wrapper where
  record : String
  field : String

namespace Wrapper

def ofMembers (w : Wrapper) (members : List (String × Value)) : Except Mismatch String :=
  match members.lookup w.field with
  | none => .error (.missingField w.field)
  | some v => decodeString v

def ofItems (w : Wrapper) (items : List Value) : Except Mismatch String :=
  match items with
  | [] => .error (.tooShort 0 w.record 1)
  | v :: _ => do
    let text ← decodeString v
    atMost 1 items
    .ok text

def decode (w : Wrapper) : Value → Except Mismatch String
  | .obj members => w.ofMembers members
  | .arr items => w.ofItems items
  | v => v.wrongForm (.record w.record)

def encode (w : Wrapper) (text : String) : Value := .obj [(w.field, .str text)]

end Wrapper

/-! ### Writing records -/

/-- A field that is written only where it is present. -/
def fieldIf (name : String) (v : Option Value) : List (String × Value) :=
  match v with
  | none => []
  | some v => [(name, v)]

def encodeNames (names : List String) : Value := .arr (names.map .str)

end EntityTypings.Json
