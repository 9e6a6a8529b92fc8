/-!
# Double-precision numbers

A number is kept as the 64 bits of the binary interchange format, which makes equality
decidable and keeps the two zeros apart.  `Binary64.value` decodes the bits exactly, and
`Binary64.ofRatio` and `Binary64.ofDecimal` round an exact number to the nearest one of the
format, a tie to the even significand.  `Binary64.mul` and `Binary64.div` round the exact
product and quotient in this way.
-/

namespace GraphSchema

/-- A double-precision number, by its bits. -/
structure Binary64 where
  bits : UInt64
  deriving DecidableEq

namespace Binary64

/-- The number that bits stand for; a finite magnitude is `significand * 2 ^ exponent`. -/
inductive Value where
  | nan
  | infinite (negative : Bool)
  | finite (negative : Bool) (significand : Nat) (exponent : Int)
  deriving DecidableEq

/-- The sign bit. -/
def negative (x : Binary64) : Bool := x.bits.toNat / Nat.pow 2 63 == 1

/-- The eleven bits of the exponent. -/
def exponentField (x : Binary64) : Nat := x.bits.toNat / Nat.pow 2 52 % Nat.pow 2 11

/-- The fifty-two bits of the fraction. -/
def fraction (x : Binary64) : Nat := x.bits.toNat % Nat.pow 2 52

/-- The exponent of the smallest numbers. -/
def leastExponent : Int := -1074

/-- The exact value of the bits. -/
def value (x : Binary64) : Value :=
  if x.exponentField = 2047 then
    if x.fraction = 0 then .infinite x.negative else .nan
  else if x.exponentField = 0 then .finite x.negative x.fraction leastExponent
  else .finite x.negative (Nat.pow 2 52 + x.fraction) (leastExponent + (x.exponentField - 1 : Nat))

/-- The bits with this sign and this magnitude below the sign bit. -/
def ofMagnitude (negative : Bool) (magnitude : Nat) : Binary64 :=
  ⟨UInt64.ofNat (magnitude + if negative then Nat.pow 2 63 else 0)⟩

/-- The infinity of a sign. -/
def infinity (negative : Bool) : Binary64 := ofMagnitude negative (2047 * Nat.pow 2 52)

/-- The number is an infinity. -/
def isInfinite (x : Binary64) : Bool := x.exponentField == 2047 && x.fraction == 0

/-- The number is one of the two zeros. -/
def isZero (x : Binary64) : Bool := x.exponentField == 0 && x.fraction == 0

/-- The whole number nearest to a quotient, of two equally near ones the even one. -/
def roundDivEven (num den : Nat) : Nat :=
  let whole := num / den
  let twice := 2 * (num % den)
  if twice < den then whole
  else if den < twice then whole + 1
  else if whole % 2 = 0 then whole else whole + 1

/-- The number of the format nearest to `num / den`, for a positive `den`. -/
def ofRatio (negative : Bool) (num den : Nat) : Binary64 :=
  if num = 0 then ofMagnitude negative 0
  else
    -- the quotient lies strictly between `2 ^ (scale - 1)` and `2 ^ (scale + 1)`
    let scale : Int := (num.log2 : Int) - (den.log2 : Int)
    let quotient (exponent : Int) : Nat × Nat :=
      (num * Nat.pow 2 (-exponent).toNat, den * Nat.pow 2 exponent.toNat)
    let low := scale - 53
    let fits := (quotient low).1 < Nat.pow 2 53 * (quotient low).2
    let exponent := max leastExponent (if fits then low else low + 1)
    let significand := roundDivEven (quotient exponent).1 (quotient exponent).2
    let field := (exponent - leastExponent).toNat
    let magnitude := field * Nat.pow 2 52 + significand
    if 2047 * Nat.pow 2 52 ≤ magnitude then infinity negative else ofMagnitude negative magnitude

/-- The number of the format nearest to `digits * 10 ^ exponent`.  Exponents far outside the
range of the format are decided without computing the power. -/
def ofDecimal (negative : Bool) (digits : Nat) (exponent : Int) : Binary64 :=
  if digits = 0 then ofMagnitude negative 0
  else
    let top := exponent + (Nat.toDigits 10 digits).length
    if 400 < top then infinity negative
    else if top < -400 then ofMagnitude negative 0
    else ofRatio negative (digits * Nat.pow 10 exponent.toNat) (Nat.pow 10 (-exponent).toNat)

/-- The exact magnitude of a finite number as a quotient of natural numbers. -/
def magnitude (x : Binary64) : Nat × Nat :=
  match x.value with
  | .finite _ significand exponent =>
    (significand * Nat.pow 2 exponent.toNat, Nat.pow 2 (-exponent).toNat)
  | .nan | .infinite _ => (0, 1)

/-- The product of two finite numbers, rounded. -/
def mul (x y : Binary64) : Binary64 :=
  ofRatio (x.negative != y.negative) (x.magnitude.1 * y.magnitude.1)
    (x.magnitude.2 * y.magnitude.2)

/-- The quotient of a finite number by another one that is not zero, rounded. -/
def div (x y : Binary64) : Binary64 :=
  ofRatio (x.negative != y.negative) (x.magnitude.1 * y.magnitude.2)
    (x.magnitude.2 * y.magnitude.1)

/-- The double-precision number equal to a single-precision one, given by its 32 bits. -/
def ofBinary32 (bits : UInt32) : Binary64 :=
  let negative := bits.toNat / Nat.pow 2 31 == 1
  let field := bits.toNat / Nat.pow 2 23 % Nat.pow 2 8
  let fraction := bits.toNat % Nat.pow 2 23
  if field = 255 then ofMagnitude negative (2047 * Nat.pow 2 52 + fraction * Nat.pow 2 29)
  else if field = 0 then ofRatio negative fraction (Nat.pow 2 149)
  else ofRatio negative ((Nat.pow 2 23 + fraction) * Nat.pow 2 (field - 1)) (Nat.pow 2 149)

/-- One half is written with the significand `2 ^ 52` and the exponent `-53`. -/
example : (ofRatio false 1 2).value = .finite false (Nat.pow 2 52) (-53) := by decide +kernel

/-- The smallest number lies nearer to `5e-324` than to zero or to its double. -/
example : (ofDecimal false 5 (-324)).value = .finite false 1 leastExponent := by decide +kernel

end Binary64

end GraphSchema
