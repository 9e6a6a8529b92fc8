import GraphSchema.Text.Ranges

/-!
# White space

The characters with the property `White_Space`, and trimming by them.
-/

namespace GraphSchema.Text

/-- Code points of white space. -/
def blankRanges : Ranges :=
  [(0x9, 0xD), (0x20, 0x20), (0x85, 0x85), (0xA0, 0xA0), (0x1680, 0x1680), (0x2000, 0x200A),
   (0x2028, 0x2029), (0x202F, 0x202F), (0x205F, 0x205F), (0x3000, 0x3000)]

/-- White space of any script. -/
def isBlank (c : Char) : Bool := blankRanges.contains c.toNat

/-- The text without white space at its two ends. -/
def trim (text : List Char) : List Char :=
  ((text.dropWhile isBlank).reverse.dropWhile isBlank).reverse

end GraphSchema.Text
