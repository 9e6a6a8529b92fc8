import GraphSchema.Text.Hex
import GraphSchema.Text.Visible

/-!
# Strings quoted for the eye

Messages about a wrong value and the dump of the command line's settings show a string so that
every character can be told: a character without a visible form of its own is written by its
code point between braces, and the common control characters by a letter.
-/

namespace GraphSchema.Text.Shown

/-- How one character is shown between the quotes. -/
def escape (c : Char) : List Char :=
  if c.toNat = 0 then ['\\', '0']
  else if c = '\t' then ['\\', 't']
  else if c = '\r' then ['\\', 'r']
  else if c = '\n' then ['\\', 'n']
  else if c = '"' then ['\\', '"']
  else if c = '\\' then ['\\', '\\']
  else if isVisible c then [c]
  else ['\\', 'u', '\x7b'] ++ hexFixed (hexWidth c.toNat) c.toNat ++ ['\x7d']

/-- The string between quotes, every character told. -/
def quote (text : String) : String :=
  String.ofList ('"' :: text.toList.flatMap escape ++ ['"'])

end GraphSchema.Text.Shown
