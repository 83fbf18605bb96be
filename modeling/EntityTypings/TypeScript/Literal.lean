/-!
# String literals and member names

`quote` writes a text as a string literal; `propertyKey` leaves an identifier as it is and quotes every
other name.
-/

namespace EntityTypings.TypeScript

/-- One character inside a string literal. -/
def quotedChar (c : Char) : List Char :=
  if c = '"' then ['\\', '"']
  else if c = '\\' then ['\\', '\\']
  else if c = '\n' then ['\\', 'n']
  else [c]

def quote (s : String) : String := String.ofList ('"' :: s.toList.flatMap quotedChar ++ ['"'])

def isIdentifierStart (c : Char) : Bool := c.isAlpha || c == '_' || c == '$'

def isIdentifierPart (c : Char) : Bool := c.isAlphanum || c == '_' || c == '$'

/-- Whether a name consists of ASCII letters, digits, `_` and `$`, and starts with none of the digits. -/
def isIdentifier (name : String) : Bool :=
  match name.toList with
  | [] => false
  | c :: s => isIdentifierStart c && s.all isIdentifierPart

def propertyKey (name : String) : String := if isIdentifier name then name else quote name

example : quote "say \"hi\"" = "\"say \\\"hi\\\"\"" := by decide

example : propertyKey "$value" = "$value" ∧ propertyKey "3d" = "\"3d\"" := by decide

end EntityTypings.TypeScript
