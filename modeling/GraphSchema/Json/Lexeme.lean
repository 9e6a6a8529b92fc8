import GraphSchema.Decimal.Reading
import GraphSchema.Json.Basic
import GraphSchema.Json.Fault
import GraphSchema.Text.Hex

/-!
# Words, numbers and strings of a JSON text

The scalars of a text.  A text is read in one of two modes: where the value is wanted (`keep`)
it is checked in full; where it is passed over (`skip`) only its extent matters, so a number may
be out of range, a surrogate may stand alone and a number that is cut short by the end of the
text is an ill-formed number rather than an ended value.

A number that is no integer of 64 bits is read with the rounding that is asked for.
-/

namespace GraphSchema.Json

/-- Whether a part of the text is wanted. -/
inductive Mode where
  | keep
  | skip
  deriving DecidableEq

/-- Stop with a fault at a place. -/
def fail {α : Type} (fault : SyntaxFault) (place : Position) : Except ReadFault α :=
  .error ⟨[], fault, place⟩

/-! ## Words -/

/-- Read the remaining letters of a word. -/
def readWord : List Char → Cursor → Except ReadFault Cursor
  | [], cursor => .ok cursor
  | letter :: rest, cursor =>
    match cursor.next? with
    | none => fail .endInValue cursor.position
    | some (c, behind) =>
      if c = letter then readWord rest behind else fail .expectedWord cursor.beyond

/-! ## Numbers -/

/-- The parts of a written number. -/
structure Numeral where
  negative : Bool
  whole : List Char
  fraction : List Char
  /-- The exponent: whether it has a minus sign, its digits, and where they begin. -/
  power : Option (Bool × List Char × Position)

/-- The whole part: a zero, or digits that do not begin with one. -/
def readWhole (ended : SyntaxFault) (cursor : Cursor) : Except ReadFault (List Char × Cursor) :=
  match cursor.next? with
  | none => fail ended cursor.position
  | some (c, behind) =>
    if c = '0' then
      match behind.next? with
      | some (d, _) => if d.isDigit then fail .invalidNumber behind.beyond else .ok ([c], behind)
      | none => .ok ([c], behind)
    else if c.isDigit then .ok cursor.digits
    else fail .invalidNumber cursor.beyond

/-- The digits behind the point, if there is one. -/
def readFraction (ended : SyntaxFault) (cursor : Cursor) : Except ReadFault (List Char × Cursor) :=
  match cursor.next? with
  | some ('.', behind) =>
    match behind.digits with
    | ([], _) =>
      if behind.rest.isEmpty then fail ended behind.position else fail .invalidNumber behind.beyond
    | (digits, last) => .ok (digits, last)
  | _ => .ok ([], cursor)

/-- The exponent, if there is one. -/
def readPower (ended : SyntaxFault) (cursor : Cursor) :
    Except ReadFault (Option (Bool × List Char × Position) × Cursor) :=
  match cursor.next? with
  | some (mark, behind) =>
    if mark = 'e' ∨ mark = 'E' then
      let (negative, first) :=
        match behind.next? with
        | some ('-', first) => (true, first)
        | some ('+', first) => (false, first)
        | _ => (false, behind)
      match first.digits with
      | ([], _) =>
        if first.rest.isEmpty then fail ended first.position else fail .invalidNumber first.beyond
      | (digits, last) => .ok (some (negative, digits, first.position), last)
    else .ok (none, cursor)
  | none => .ok (none, cursor)

/-- A number, by its parts. -/
def readNumeral (ended : SyntaxFault) (cursor : Cursor) : Except ReadFault (Numeral × Cursor) := do
  let (negative, first) :=
    match cursor.next? with
    | some ('-', behind) => (true, behind)
    | _ => (false, cursor)
  let (whole, afterWhole) ← readWhole ended first
  let (fraction, afterFraction) ← readFraction ended afterWhole
  let (power, last) ← readPower ended afterFraction
  return (⟨negative, whole, fraction, power⟩, last)

/-- The largest exponent that is computed with. -/
def greatestPower : Nat := Nat.pow 2 31 - 1

/-- How many digits of an exponent are read before its value passes `greatestPower`, the digit
that passes it included; `none` if none does. -/
def overflowAt (value count : Nat) : List Char → Option Nat
  | [] => none
  | digit :: rest =>
    let value := 10 * value + Decimal.digitValue digit
    if greatestPower < value then some (count + 1) else overflowAt value (count + 1) rest

/-- The value of a written number that ends at `last`.  A whole number without point and
exponent is an integer as long as it fits into 64 bits, with a sign if it has one. -/
def Numeral.value (rounding : Rounding) (numeral : Numeral) (last : Position) :
    Except ReadFault Number :=
  let float (power : Int) : Except ReadFault Number :=
    match Binary64.read? rounding numeral.negative numeral.whole numeral.fraction power with
    | some x => .ok (.float x)
    | none => fail .numberOutOfRange last
  match numeral.power with
  | some (negative, powerDigits, first) =>
    match overflowAt 0 0 powerDigits with
    | some count =>
      if Decimal.digitsValue (numeral.whole ++ numeral.fraction) ≠ 0 ∧ !negative then
        fail .numberOutOfRange ⟨first.line, first.column + count⟩
      else .ok (.float (Binary64.ofMagnitude numeral.negative 0))
    | none =>
      let power : Int := Decimal.digitsValue powerDigits
      float (if negative then -power else power)
  | none =>
    let whole := Decimal.digitsValue numeral.whole
    if !numeral.fraction.isEmpty then float 0
    else if numeral.negative then
      if 0 < whole ∧ whole ≤ Nat.pow 2 63 then .ok (.integer (-whole)) else float 0
    else if whole < Nat.pow 2 64 then .ok (.integer whole)
    else float 0

/-! ## Strings -/

/-- The value of four hexadecimal digits. -/
def hexValue4? (a b c d : Char) : Option Nat := do
  let a ← Text.hexValue? a
  let b ← Text.hexValue? b
  let c ← Text.hexValue? c
  let d ← Text.hexValue? d
  return ((a * 16 + b) * 16 + c) * 16 + d

/-- The four digits behind `\u`.  They are taken as four bytes at once: if fewer are left, the
text has ended in a string. -/
def readHex (cursor : Cursor) : Except ReadFault (Nat × Cursor) :=
  let refuse : Except ReadFault (Nat × Cursor) :=
    match Cursor.bytesAhead cursor.rest 4 cursor.position with
    | none => fail .endInString cursor.finish
    | some place => fail .invalidEscape place
  match cursor.rest with
  | a :: b :: c :: d :: rest =>
    match hexValue4? a b c d with
    | some value => .ok (value, ⟨rest, ⟨cursor.position.line, cursor.position.column + 4⟩⟩)
    | none => refuse
  | _ => refuse

/-- A high surrogate has been read; the low one has to follow at once. -/
def readLowSurrogate (high : Nat) (cursor : Cursor) : Except ReadFault (List Char × Cursor) := do
  let expect (letter : Char) (cursor : Cursor) : Except ReadFault Cursor :=
    match cursor.next? with
    | none => fail .endInString cursor.position
    | some (c, behind) =>
      if c = letter then .ok behind else fail .unpairedSurrogate cursor.beyond
  let cursor ← expect '\\' cursor
  let cursor ← expect 'u' cursor
  let (low, cursor) ← readHex cursor
  if low < 0xDC00 ∨ 0xDFFF < low then fail .loneSurrogate cursor.position
  else .ok ([Char.ofNat (0x10000 + (high - 0xD800) * 0x400 + (low - 0xDC00))], cursor)

/-- The code point behind `\u`. -/
def readCodePoint (mode : Mode) (cursor : Cursor) : Except ReadFault (List Char × Cursor) := do
  let (value, cursor) ← readHex cursor
  if mode = .skip then return ([], cursor)
  else if 0xDC00 ≤ value ∧ value ≤ 0xDFFF then fail .loneSurrogate cursor.position
  else if 0xD800 ≤ value ∧ value ≤ 0xDBFF then readLowSurrogate value cursor
  else return ([Char.ofNat value], cursor)

/-- What stands behind a backslash. -/
def readEscape (mode : Mode) (cursor : Cursor) : Except ReadFault (List Char × Cursor) :=
  match cursor.next? with
  | none => fail .endInString cursor.position
  | some (c, behind) =>
    match c with
    | '"' => .ok (['"'], behind)
    | '\\' => .ok (['\\'], behind)
    | '/' => .ok (['/'], behind)
    | 'b' => .ok ([Char.ofNat 8], behind)
    | 'f' => .ok ([Char.ofNat 12], behind)
    | 'n' => .ok (['\n'], behind)
    | 'r' => .ok (['\r'], behind)
    | 't' => .ok (['\t'], behind)
    | 'u' => readCodePoint mode behind
    | _ => fail .invalidEscape cursor.beyond

/-- The characters of a string up to its closing quote.  Every step reads at least one
character, so as many steps as there are characters suffice. -/
def readCharacters (mode : Mode) : Nat → Cursor → Except ReadFault (List Char × Cursor)
  | 0, cursor => fail .endInString cursor.position
  | steps + 1, cursor =>
    match cursor.next? with
    | none => fail .endInString cursor.position
    | some (c, behind) =>
      if c = '"' then .ok ([], behind)
      else if c = '\\' then do
        let (decoded, behind) ← readEscape mode behind
        let (more, last) ← readCharacters mode steps behind
        return (decoded ++ more, last)
      else if c.toNat < 32 then
        fail .controlCharacter (if mode = .skip then cursor.position else behind.position)
      else do
        let (more, last) ← readCharacters mode steps behind
        return (c :: more, last)

/-- A string whose opening quote has been read. -/
def readString (mode : Mode) (cursor : Cursor) : Except ReadFault (String × Cursor) := do
  let (characters, last) ← readCharacters mode (cursor.rest.length + 1) cursor
  return (String.ofList characters, last)

end GraphSchema.Json
