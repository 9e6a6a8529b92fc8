import GraphSchema.Decimal.Shortest

/-!
# Texts of numbers

A `Style` is a way to write the shortest decimal of a number: which exponents are written
positionally, whether a whole number shows its point, and how a tie between two shortest
decimals goes.  `literalStyle` writes the numbers of literal expressions and `plainStyle` those
of messages and of documents.
-/

namespace GraphSchema.Decimal

/-- A way to write numbers. -/
structure Style where
  tie : Tie
  /-- A whole number in positional form ends in `.0`. -/
  showsPoint : Bool
  /-- The decimal exponents of the leading digit that are written positionally, from the first
  to below the second; `none` for all. -/
  positional : Option (Int × Int)

/-- The decimal digits of a natural number. -/
def digitsOf (n : Nat) : List Char := Nat.toDigits 10 n

/-- A decimal with its point in place. -/
def positionalText (showsPoint : Bool) (number : Scaled) : List Char :=
  let digits := digitsOf number.digits
  if 0 ≤ number.exponent then
    digits ++ List.replicate number.exponent.toNat '0' ++ (if showsPoint then ['.', '0'] else [])
  else
    let places := (-number.exponent).toNat
    let padded := List.replicate (places + 1 - digits.length) '0' ++ digits
    padded.take (padded.length - places) ++ '.' :: padded.drop (padded.length - places)

/-- A decimal with one digit before the point and the exponent, with its sign, at the end. -/
def exponentText (number : Scaled) : List Char :=
  let digits := digitsOf number.digits
  let exponent := number.exponent + (digits.length - 1 : Nat)
  let fraction := digits.drop 1
  digits.take 1 ++ (if fraction.isEmpty then [] else '.' :: fraction) ++
    'e' :: (if exponent < 0 then '-' else '+') :: digitsOf exponent.natAbs

/-- The magnitude of a positive decimal. -/
def Style.magnitude (style : Style) (number : Scaled) : List Char :=
  let leading := number.exponent + ((digitsOf number.digits).length - 1 : Nat)
  match style.positional with
  | none => positionalText style.showsPoint number
  | some (low, high) =>
    if low ≤ leading ∧ leading < high then positionalText style.showsPoint number
    else exponentText number

/-- The text of a number. -/
def Style.text (style : Style) (x : Binary64) : String :=
  match x.value with
  | .nan => "NaN"
  | .infinite negative => if negative then "-inf" else "inf"
  | .finite negative significand exponent =>
    let magnitude :=
      if significand = 0 then positionalText style.showsPoint ⟨0, 0⟩
      else style.magnitude (shortest style.tie significand exponent)
    String.ofList (if negative then '-' :: magnitude else magnitude)

/-- Literal expressions write every number positionally, a whole one without a point. -/
def literalStyle : Style where
  tie := .up
  showsPoint := false
  positional := none

/-- Messages and documents write a whole number with `.0`, and numbers below `1e-5` or from
`1e16` on with an exponent. -/
def plainStyle : Style where
  tie := .even
  showsPoint := true
  positional := some (-5, 16)

example : plainStyle.text (.ofDecimal false 15 299) = "1.5e+300" := by decide +kernel

example : literalStyle.text (.ofDecimal true 0 0) = "-0" := by decide +kernel

end GraphSchema.Decimal
