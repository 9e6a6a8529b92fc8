import GraphSchema.Json.Cursor

/-!
# What can be wrong with a text

`SyntaxFault` lists the ways in which a text fails to be JSON and `Path` says where in the
value the reading had got to.
-/

namespace GraphSchema.Json

/-- A way in which a text fails to be JSON. -/
inductive SyntaxFault where
  | endInList
  | endInObject
  | endInString
  | endInValue
  | expectedColon
  | expectedListCommaOrEnd
  | expectedObjectCommaOrEnd
  | expectedWord
  | expectedValue
  | invalidEscape
  | invalidNumber
  | numberOutOfRange
  | controlCharacter
  | keyNotString
  | loneSurrogate
  | unpairedSurrogate
  | trailingComma
  | trailingCharacters
  | tooDeep
  deriving DecidableEq

/-- The wording of a fault. -/
def SyntaxFault.message : SyntaxFault → String
  | endInList => "EOF while parsing a list"
  | endInObject => "EOF while parsing an object"
  | endInString => "EOF while parsing a string"
  | endInValue => "EOF while parsing a value"
  | expectedColon => "expected `:`"
  | expectedListCommaOrEnd => "expected `,` or `]`"
  | expectedObjectCommaOrEnd => "expected `,` or `\x7d`"
  | expectedWord => "expected ident"
  | expectedValue => "expected value"
  | invalidEscape => "invalid escape"
  | invalidNumber => "invalid number"
  | numberOutOfRange => "number out of range"
  | controlCharacter => "control character (\\u0000-\\u001F) found while parsing a string"
  | keyNotString => "key must be a string"
  | loneSurrogate => "lone leading surrogate in hex escape"
  | unpairedSurrogate => "unexpected end of hex escape"
  | trailingComma => "trailing comma"
  | trailingCharacters => "trailing characters"
  | tooDeep => "recursion limit exceeded"

/-- A step from a value into one of its parts. -/
inductive Segment where
  | key (name : String)
  | index (place : Nat)
  /-- A key that was still being read. -/
  | unread
  deriving DecidableEq

/-- The way from the whole value to a part. -/
abbrev Path := List Segment

/-- A segment with the dot that separates it from the segments before it. -/
def Segment.text (first : Bool) : Segment → String
  | key name => (if first then "" else ".") ++ name
  | index place => "[" ++ toString place ++ "]"
  | unread => if first then "?" else ".?"

/-- Keys behind dots and indices in brackets; a lone dot for the whole value. -/
def Path.text : Path → String
  | [] => "."
  | first :: rest => first.text true ++ String.join (rest.map (Segment.text false))

/-- A text that fails to be JSON: where in the value, how, and at which place. -/
structure ReadFault where
  path : Path
  fault : SyntaxFault
  position : Position

/-- The fault of a part, seen from the whole. -/
def ReadFault.within (segment : Segment) (fault : ReadFault) : ReadFault :=
  { fault with path := segment :: fault.path }

/-- A place at the end of a message. -/
def Position.text (place : Position) : String :=
  " at line " ++ toString place.line ++ " column " ++ toString place.column

end GraphSchema.Json
