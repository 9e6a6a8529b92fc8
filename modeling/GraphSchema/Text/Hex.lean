/-!
# Hexadecimal digits

Code points are written in hexadecimal with small letters, either at a fixed width or with no
leading zero.
-/

namespace GraphSchema.Text

/-- The digit of a value below sixteen; larger values have the digit of their remainder. -/
def hexDigit (value : Nat) : Char :=
  let value := value % 16
  if value < 10 then Char.ofNat (48 + value) else Char.ofNat (87 + value)

/-- The last `width` hexadecimal digits of a number. -/
def hexFixed : Nat → Nat → List Char
  | 0, _ => []
  | width + 1, value => hexFixed width (value / 16) ++ [hexDigit value]

/-- The number of hexadecimal digits of a code point without leading zeros. -/
def hexWidth (value : Nat) : Nat :=
  if value < 0x10 then 1
  else if value < 0x100 then 2
  else if value < 0x1000 then 3
  else if value < 0x10000 then 4
  else if value < 0x100000 then 5
  else 6

/-- The value of a hexadecimal digit, of either case. -/
def hexValue? (digit : Char) : Option Nat :=
  if '0' ≤ digit ∧ digit ≤ '9' then some (digit.toNat - 48)
  else if 'a' ≤ digit ∧ digit ≤ 'f' then some (digit.toNat - 87)
  else if 'A' ≤ digit ∧ digit ≤ 'F' then some (digit.toNat - 55)
  else none

/-- Every digit reads back. -/
theorem hexValue?_hexDigit (value : Nat) : hexValue? (hexDigit value) = some (value % 16) := by
  have digits : ∀ n : Fin 16, hexValue? (hexDigit n) = some n.val := by decide
  have h := digits ⟨value % 16, Nat.mod_lt _ (by decide)⟩
  simpa [hexDigit] using h

end GraphSchema.Text
