import ByteMachine.Text.Numeral

/-!
# Quoted text

A text between double quotes, in which escapes stand for the characters that
could not be told from the quotes or that cannot be seen.
-/

namespace ByteMachine
namespace Text

/-- A character between double quotes: quotes, backslashes and control
characters are escaped, the latter by a short form where there is one. -/
def escape (c : Char) : List Char :=
  if c = '"' then ['\\', '"']
  else if c = '\\' then ['\\', '\\']
  else if c.toNat = 0x08 then ['\\', 'b']
  else if c.toNat = 0x09 then ['\\', 't']
  else if c.toNat = 0x0A then ['\\', 'n']
  else if c.toNat = 0x0C then ['\\', 'f']
  else if c.toNat = 0x0D then ['\\', 'r']
  else if c.toNat < 0x20 then '\\' :: 'u' :: (Numeral.hex 4 c.toNat).toList
  else [c]

def doubleQuoted (text : String) : String :=
  "\"" ++ String.ofList (text.toList.flatMap escape) ++ "\""

end Text
end ByteMachine
