import GraphSchema.Decimal.Text
import GraphSchema.Literal.Data

/-!
# Data as literal expressions

`Data.encode` turns plain data into a literal expression.  An absent value is `void`, and an
entry of a map or a record whose value is `void` is left out; in a sequence it keeps its place,
and the payload of a variant is kept.  What has no literal form is a cause of `Unsupported`,
and the first such part from left to right is reported.
-/

namespace GraphSchema

/-- Data without a literal form. -/
inductive Unsupported where
  | bytes (count : Nat)
  | nonFinite (value : Binary64)
  | mapKey (key : Literal)
  | valueWithoutKey
  | failure (reason : String)

namespace Unsupported

/-- The name of what has no literal form. -/
def subject : Unsupported → String
  | bytes count => "a byte buffer (" ++ toString count ++ " bytes)"
  | nonFinite value => "the non-finite number " ++ Decimal.literalStyle.text value
  | mapKey key => "a map key `" ++ key.text ++ "`"
  | valueWithoutKey => "a map value without a key"
  | failure reason => reason

/-- The wording of a cause. -/
def message (cause : Unsupported) : String :=
  "don't know how to turn " ++ cause.subject ++ " into a literal expression"

end Unsupported

namespace Literal

/-- The expression of the absent value. -/
def isVoid : Literal → Bool
  | void => true
  | _ => false

/-- A variant with a payload: an object with one entry. -/
def ofVariant (variant : String) (payload : Literal) : Literal := object true [(variant, payload)]

/-- Put an entry in front, unless its value is absent. -/
def consEntry (key : String) (value : Literal) (rest : List (String × Literal)) :
    List (String × Literal) :=
  if value.isVoid then rest else (key, value) :: rest

/-- A number; the values that are not finite have no literal form. -/
def ofBinary64 (value : Binary64) : Except Unsupported Literal :=
  match value.value with
  | .finite .. => .ok (number (Decimal.literalStyle.text value))
  | _ => .error (.nonFinite value)

/-- The key that an expression spells: a string, or the text of a number. -/
def mapKey : Literal → Except Unsupported String
  | string text => .ok text
  | number text => .ok text
  | other => .error (.mapKey other)

end Literal

namespace Data

mutual

/-- The literal expression of plain data. -/
def encode : Data → Except Unsupported Literal
  | absent => .ok .void
  | present value => encode value
  | unit => .ok .null
  | unitStruct _ => .ok .null
  | bool value => .ok (.bool value)
  | integer value => .ok (.number (toString value))
  | single bits => Literal.ofBinary64 (Binary64.ofBinary32 bits)
  | double value => Literal.ofBinary64 value
  | char value => .ok (.string (String.singleton value))
  | string value => .ok (.string value)
  | bytes contents => .error (.bytes contents.length)
  | failure reason => .error (.failure reason)
  | unitVariant variant => .ok (.string variant)
  | newtype value => encode value
  | newtypeVariant variant value => do return .ofVariant variant (← encode value)
  | sequence elements => do return .array true (← encodeAll elements)
  | tuple elements => do return .array true (← encodeAll elements)
  | tupleStruct elements => do return .array true (← encodeAll elements)
  | tupleVariant variant elements => do
    return .ofVariant variant (.array true (← encodeAll elements))
  | map calls => do return .object true (← encodeCalls none calls)
  | record fields => do return .object true (← encodeFields fields)
  | recordVariant variant fields => do
    return .ofVariant variant (.object true (← encodeFields fields))

/-- The expressions of a sequence, in order. -/
def encodeAll : List Data → Except Unsupported (List Literal)
  | [] => .ok []
  | value :: rest => do
    let first ← encode value
    return first :: (← encodeAll rest)

/-- The entries that the calls on a map write; `pending` is the key that waits for a value.  A
value goes with the latest key before it and uses that key up. -/
def encodeCalls (pending : Option String) :
    List (MapRole × Data) → Except Unsupported (List (String × Literal))
  | [] => .ok []
  | (.key, key) :: rest => do
    let name ← (← encode key).mapKey
    encodeCalls (some name) rest
  | (.value, value) :: rest =>
    match pending with
    | none => .error .valueWithoutKey
    | some name => do
      let first ← encode value
      return Literal.consEntry name first (← encodeCalls none rest)

/-- The entries of a record. -/
def encodeFields : List (String × Data) → Except Unsupported (List (String × Literal))
  | [] => .ok []
  | (name, value) :: rest => do
    let first ← encode value
    return Literal.consEntry name first (← encodeFields rest)

end

end Data

end GraphSchema
