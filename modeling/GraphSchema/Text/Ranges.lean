/-!
# Character sets given by ranges

A property of the Unicode standard is a sorted list of closed ranges of code points.
-/

namespace GraphSchema.Text

/-- Closed ranges of code points, in increasing order. -/
abbrev Ranges := List (Nat × Nat)

/-- The code point lies in one of the ranges. -/
def Ranges.contains (ranges : Ranges) (point : Nat) : Bool :=
  ranges.any fun range => range.1 ≤ point && point ≤ range.2

end GraphSchema.Text
