import GraphSchema.Decimal.Text
import GraphSchema.Json.Basic
import GraphSchema.Text.Quoted

/-!
# Written JSON

`Json.pretty` lays a value out over lines, two spaces deeper at each level, with empty arrays
and objects on one line; `Json.compact` writes it without any white space.
-/

namespace GraphSchema

/-- The text of a number in a document. -/
def Number.text : Number → String
  | integer value => toString value
  | float value =>
    match value.value with
    | .finite .. => Decimal.plainStyle.text value
    | _ => "null"

/-- A new line with two spaces for each level. -/
def lineBreak (level : Nat) : String := String.ofList ('\n' :: List.replicate (2 * level) ' ')

namespace Json

/-- The text of a truth value. -/
def boolText (value : Bool) : String := if value then "true" else "false"

mutual

/-- The layout of a value whose first line is already indented to `level`. -/
def prettyAt (level : Nat) : Json → String
  | null => "null"
  | bool value => boolText value
  | number value => value.text
  | string value => Text.Quoted.quote value
  | array [] => "[]"
  | array (first :: rest) =>
    "[" ++ lineBreak (level + 1) ++ prettyAt (level + 1) first ++
      prettyElements (level + 1) rest ++ lineBreak level ++ "]"
  | object [] => "\x7b\x7d"
  | object ((key, value) :: rest) =>
    "\x7b" ++ lineBreak (level + 1) ++ Text.Quoted.quote key ++ ": " ++
      prettyAt (level + 1) value ++ prettyEntries (level + 1) rest ++ lineBreak level ++ "\x7d"

/-- The elements after the first, each on a line of its own. -/
def prettyElements (level : Nat) : List Json → String
  | [] => ""
  | value :: rest => "," ++ lineBreak level ++ prettyAt level value ++ prettyElements level rest

/-- The entries after the first, each on a line of its own. -/
def prettyEntries (level : Nat) : List (String × Json) → String
  | [] => ""
  | (key, value) :: rest =>
    "," ++ lineBreak level ++ Text.Quoted.quote key ++ ": " ++ prettyAt level value ++
      prettyEntries level rest

end

/-- The layout of a value over lines. -/
def pretty (value : Json) : String := prettyAt 0 value

mutual

/-- A value without white space. -/
def compact : Json → String
  | null => "null"
  | bool value => boolText value
  | number value => value.text
  | string value => Text.Quoted.quote value
  | array [] => "[]"
  | array (first :: rest) => "[" ++ compact first ++ compactElements rest ++ "]"
  | object [] => "\x7b\x7d"
  | object ((key, value) :: rest) =>
    "\x7b" ++ Text.Quoted.quote key ++ ":" ++ compact value ++ compactEntries rest ++ "\x7d"

/-- The elements after the first, without white space. -/
def compactElements : List Json → String
  | [] => ""
  | value :: rest => "," ++ compact value ++ compactElements rest

/-- The entries after the first, without white space. -/
def compactEntries : List (String × Json) → String
  | [] => ""
  | (key, value) :: rest =>
    "," ++ Text.Quoted.quote key ++ ":" ++ compact value ++ compactEntries rest

end

end Json

end GraphSchema
