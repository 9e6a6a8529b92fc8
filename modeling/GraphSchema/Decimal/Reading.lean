import GraphSchema.Decimal.Binary64

/-!
# Reading decimals

A written decimal is brought to the double-precision format in one of two ways.  `nearest`
rounds its value once.  `stepwise` computes with numbers of the format as it goes: it gathers
the leading digits into a whole number that is kept within 64 bits, rounds that, and brings it
to its power of ten by multiplications or divisions that are rounded each for itself.  The two
differ in the last places, and at the upper end of the format.
-/

namespace GraphSchema

/-- A way to bring a decimal to the format. -/
inductive Rounding where
  | nearest
  | stepwise
  deriving DecidableEq

namespace Decimal

/-- The value of a decimal digit. -/
def digitValue (digit : Char) : Nat := digit.toNat - 48

/-- The value of decimal digits. -/
def digitsValue (digits : List Char) : Nat :=
  digits.foldl (fun value digit => 10 * value + digitValue digit) 0

/-- The greatest whole number that digits are gathered into. -/
def greatestGathered : Nat := Nat.pow 2 64 - 1

/-- Append digits to a whole number as long as it stays within bounds.  The digits from the
first one that does not fit on are left. -/
def gather (gathered : Nat) : List Char → Nat × List Char
  | [] => (gathered, [])
  | digit :: rest =>
    let longer := 10 * gathered + digitValue digit
    if longer ≤ greatestGathered then gather longer rest else (gathered, digit :: rest)

/-- The leading digits of a decimal as a whole number, and the power of ten that it counts.
Whole digits that are left raise the power, and digits of the fraction that are taken lower it;
the fraction is tried even when whole digits are left. -/
def gatherParts (whole fraction : List Char) : Nat × Int :=
  let (gathered, left) := gather 0 whole
  let (gathered, leftOfFraction) := gather gathered fraction
  (gathered, left.length - (fraction.length - leftOfFraction.length))

end Decimal

namespace Binary64

/-- The greatest power of ten within the format. -/
def greatestTenPower : Nat := 308

/-- The number of the format nearest to a power of ten. -/
def tenPower (exponent : Nat) : Binary64 := ofRatio false (Nat.pow 10 exponent) 1

/-- Bring a number to a power of ten by steps of at most the greatest one; nothing if that leads
out of the format. -/
def scale (x : Binary64) (exponent : Int) : Option Binary64 :=
  if exponent.natAbs ≤ greatestTenPower then
    let power := tenPower exponent.natAbs
    let scaled := if 0 ≤ exponent then x.mul power else x.div power
    if scaled.isInfinite then none else some scaled
  else if x.isZero then some x
  else if 0 ≤ exponent then none
  else scale (x.div (tenPower greatestTenPower)) (exponent + greatestTenPower)
termination_by exponent.natAbs
decreasing_by simp only [greatestTenPower] at *; omega

/-- The number that a decimal with these digits and this power of ten is read as; nothing if it
lies out of the format. -/
def read? (rounding : Rounding) (negative : Bool) (whole fraction : List Char) (power : Int) :
    Option Binary64 :=
  match rounding with
  | .nearest =>
    let nearest :=
      ofDecimal negative (Decimal.digitsValue (whole ++ fraction)) (power - fraction.length)
    if nearest.isInfinite then none else some nearest
  | .stepwise =>
    let (gathered, exponent) := Decimal.gatherParts whole fraction
    scale (ofRatio negative gathered 1) (exponent + power)

/-- The twenty-third power of ten is not in the format, so a division by it is rounded twice. -/
example :
    read? .stepwise false ['1'] [] (-23) ≠ read? .nearest false ['1'] [] (-23) := by
  decide +kernel

end Binary64

end GraphSchema
