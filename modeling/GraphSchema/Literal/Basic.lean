import GraphSchema.Json.Layout
import GraphSchema.Text.Quoted

/-!
# Literal expressions

A literal expression is a value written in the source text of a program: `Literal.text` is that
text.  Containers are laid out over lines or on one line, and a key that is an identifier needs
no quotes.
-/

namespace GraphSchema

/-- A literal expression. -/
inductive Literal where
  /-- The absent value. -/
  | void
  | null
  | bool (value : Bool)
  /-- A number, by its text. -/
  | number (text : String)
  | string (value : String)
  | array (multiline : Bool) (elements : List Literal)
  | object (multiline : Bool) (properties : List (String × Literal))

namespace Literal

/-- A letter of the ASCII alphabet, an underscore or a dollar sign. -/
def isIdentifierStart (c : Char) : Bool := c.isAlpha || c == '_' || c == '$'

/-- What may follow in an identifier: the same, and the ASCII digits. -/
def isIdentifierPart (c : Char) : Bool := isIdentifierStart c || c.isDigit

/-- The text is an identifier. -/
def isIdentifier (text : String) : Bool :=
  match text.toList with
  | [] => false
  | c :: rest => isIdentifierStart c && rest.all isIdentifierPart

/-- A key, quoted unless it is an identifier. -/
def keyText (key : String) : String := if isIdentifier key then key else Text.Quoted.quote key

/-- What stands before the first part of a container whose parts are at `level`. -/
def opening (multiline : Bool) (level : Nat) (pad : String) : String :=
  if multiline then lineBreak level else pad

/-- What stands between two parts of a container whose parts are at `level`. -/
def between (multiline : Bool) (level : Nat) : String :=
  if multiline then "," ++ lineBreak level else ", "

/-- What stands behind the last part of a container at `level`. -/
def closing (multiline : Bool) (level : Nat) (pad : String) : String :=
  if multiline then lineBreak level else pad

mutual

/-- The text of an expression whose first line is already indented to `level`. -/
def textAt (level : Nat) : Literal → String
  | void => "void 0"
  | null => "null"
  | bool value => Json.boolText value
  | number text => text
  | string value => Text.Quoted.quote value
  | array _ [] => "[]"
  | array multiline (first :: rest) =>
    "[" ++ opening multiline (level + 1) "" ++ textAt (level + 1) first ++
      elementsText multiline (level + 1) rest ++ closing multiline level "" ++ "]"
  | object _ [] => "\x7b\x7d"
  | object multiline ((key, value) :: rest) =>
    "\x7b" ++ opening multiline (level + 1) " " ++ keyText key ++ ": " ++
      textAt (level + 1) value ++ propertiesText multiline (level + 1) rest ++
      closing multiline level " " ++ "\x7d"

/-- The elements after the first. -/
def elementsText (multiline : Bool) (level : Nat) : List Literal → String
  | [] => ""
  | value :: rest =>
    between multiline level ++ textAt level value ++ elementsText multiline level rest

/-- The properties after the first. -/
def propertiesText (multiline : Bool) (level : Nat) : List (String × Literal) → String
  | [] => ""
  | (key, value) :: rest =>
    between multiline level ++ keyText key ++ ": " ++ textAt level value ++
      propertiesText multiline level rest

end

/-- The text of an expression. -/
def text (literal : Literal) : String := textAt 0 literal

end Literal

end GraphSchema
