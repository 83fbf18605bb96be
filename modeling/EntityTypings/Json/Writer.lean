import EntityTypings.Decimal.Layout
import EntityTypings.Json.Value

/-!
# Compact JSON text

No blank between tokens, members in the order the value lists them, and in strings an escape only for
the quote, the backslash and the controls below the space.
-/

namespace EntityTypings.Json

open Decimal (Layout)

/-- Doubles are written in full from 0.00001 up to sixteen digits before the point. -/
def doubleLayout : Layout := ⟨-5, 15⟩

def writtenChar (c : Char) : List Char :=
  if c = '"' then ['\\', '"']
  else if c = '\\' then ['\\', '\\']
  else if c = '\x08' then ['\\', 'b']
  else if c = '\x0c' then ['\\', 'f']
  else if c = '\n' then ['\\', 'n']
  else if c = '\r' then ['\\', 'r']
  else if c = '\t' then ['\\', 't']
  else if c.toNat < 0x20 then
    ['\\', 'u', '0', '0', Nat.digitChar (c.toNat / 16), Nat.digitChar (c.toNat % 16)]
  else [c]

def writtenString (s : String) : List Char := '"' :: s.toList.flatMap writtenChar ++ ['"']

def writtenInt (n : Int) : List Char :=
  (if n < 0 then ['-'] else []) ++ Nat.toDigits 10 n.natAbs

def Number.written : Number → List Char
  | .int n => writtenInt n
  | .float x => doubleLayout.writeDouble x.toBits.toNat

mutual

def Value.written : Value → List Char
  | .null => ['n', 'u', 'l', 'l']
  | .bool true => ['t', 'r', 'u', 'e']
  | .bool false => ['f', 'a', 'l', 's', 'e']
  | .num n => n.written
  | .str s => writtenString s
  | .arr [] => ['[', ']']
  | .arr (v :: vs) => '[' :: v.written ++ writtenItems vs
  | .obj [] => ['\x7b', '\x7d']
  | .obj ((name, v) :: ms) => '\x7b' :: writtenString name ++ ':' :: v.written ++ writtenMembers ms

/-- The items after the first, and the closing bracket. -/
def writtenItems : List Value → List Char
  | [] => [']']
  | v :: vs => ',' :: v.written ++ writtenItems vs

/-- The members after the first, and the closing brace. -/
def writtenMembers : List (String × Value) → List Char
  | [] => ['\x7d']
  | (name, v) :: ms => ',' :: writtenString name ++ ':' :: v.written ++ writtenMembers ms

end

/-- The compact text of a value. -/
def Value.write (v : Value) : String := String.ofList v.written

example : (Value.obj [("a", .arr [.null, .num (.int (-3))]), ("b\n", .obj [])]).write =
    "\x7b\"a\":[null,-3],\"b\\n\":\x7b\x7d\x7d" := by decide +kernel

end EntityTypings.Json
