import GraphSchema.Text.Hex

/-!
# Quoted strings of JSON

A string stands between double quotes.  The quote and the backslash are escaped, so are the
control characters below the space: backspace, form feed, newline, carriage return and
tabulator by a letter, the others by four hexadecimal digits.  Everything else stands as it
is.
-/

namespace GraphSchema.Text.Quoted

/-- How one character is written between the quotes. -/
def escape (c : Char) : List Char :=
  if c = '"' then ['\\', '"']
  else if c = '\\' then ['\\', '\\']
  else if c.toNat = 8 then ['\\', 'b']
  else if c.toNat = 12 then ['\\', 'f']
  else if c = '\n' then ['\\', 'n']
  else if c = '\r' then ['\\', 'r']
  else if c = '\t' then ['\\', 't']
  else if c.toNat < 32 then '\\' :: 'u' :: hexFixed 4 c.toNat
  else [c]

/-- The quoted form of a string, as characters. -/
def encode (text : List Char) : List Char := '"' :: text.flatMap escape ++ ['"']

/-- The quoted form of a string. -/
def quote (text : String) : String := String.ofList (encode text.toList)

@[simp] theorem toList_quote (text : String) : (quote text).toList = encode text.toList := by
  simp [quote]

end GraphSchema.Text.Quoted
