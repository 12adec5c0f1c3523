/-
This file writes a text as a quoted JSON string. Double quotes and backslashes
are escaped by a backslash, the five control characters with a letter of their
own by that letter, the other control characters by their number, and every other
character stands for itself. Reports quote the words they speak of in the same way.
-/

namespace Idl.Text

/-- The written form of one character inside a quoted text. -/
def escape (character : Char) : List Char :=
  if character == '"' then ['\\', '"']
  else if character == '\\' then ['\\', '\\']
  else if character == '\x08' then ['\\', 'b']
  else if character == '\t' then ['\\', 't']
  else if character == '\n' then ['\\', 'n']
  else if character == '\x0c' then ['\\', 'f']
  else if character == '\r' then ['\\', 'r']
  else if character.toNat < 32 then
    ['\\', 'u', '0', '0', Nat.digitChar (character.toNat / 16),
      Nat.digitChar (character.toNat % 16)]
  else [character]

/-- The quoted form of a text: its characters in written form between double quotes. -/
def quoted (text : List Char) : List Char :=
  '"' :: (text.flatMap escape ++ ['"'])

/-- The quoted form of a text, as a string. -/
def quote (text : String) : String :=
  String.ofList (quoted text.toList)

end Idl.Text
