import EntityTypings.Text.Printable

/-!
# Text in messages

A text inside a message stands between double quotes, with an escape for the quote, the backslash
and every character that does not print, so that a message stays on one line.
-/

namespace EntityTypings.Text

/-- One character of a text shown in a message. -/
def shownChar (c : Char) : List Char :=
  if c = '\t' then ['\\', 't']
  else if c = '\r' then ['\\', 'r']
  else if c = '\n' then ['\\', 'n']
  else if c = '\x00' then ['\\', '0']
  else if c = '\\' then ['\\', '\\']
  else if c = '"' then ['\\', '"']
  else if isPrintable c then [c]
  else '\\' :: 'u' :: '\x7b' :: Nat.toDigits 16 c.toNat ++ ['\x7d']

/-- A text as a message shows it. -/
def shown (s : String) : String :=
  String.ofList ('"' :: s.toList.flatMap shownChar ++ ['"'])

example : shown "a\"b\n\u0301" = "\"a\\\"b\\n\\u\x7b301\x7d\""   := by decide +kernel

end EntityTypings.Text
