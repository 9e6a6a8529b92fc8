/-!
# Places in a text

A cursor is the unread part of a text with the place that reading has reached.  Lines count
from one; the column is the number of bytes read on the line, in the text's UTF-8 form, so it is
zero just after a newline.
-/

namespace GraphSchema.Json

/-- A place in a text. -/
structure Position where
  line : Nat
  column : Nat
  deriving DecidableEq

namespace Position

/-- The place after one more byte; `c` is the character that the byte begins. -/
def byte (place : Position) (c : Char) : Position :=
  if c = '\n' then ⟨place.line + 1, 0⟩ else ⟨place.line, place.column + 1⟩

/-- The place after a character. -/
def char (place : Position) (c : Char) : Position :=
  if c = '\n' then ⟨place.line + 1, 0⟩ else ⟨place.line, place.column + c.utf8Size⟩

end Position

/-- The unread part of a text and the place where it begins. -/
structure Cursor where
  rest : List Char
  position : Position

namespace Cursor

/-- The beginning of a text. -/
def start (text : String) : Cursor := ⟨text.toList, ⟨1, 0⟩⟩

/-- The next character and the cursor behind it. -/
def next? (cursor : Cursor) : Option (Char × Cursor) :=
  match cursor.rest with
  | [] => none
  | c :: rest => some (c, ⟨rest, cursor.position.char c⟩)

@[simp] theorem next?_cons (c : Char) (rest : List Char) (position : Position) :
    next? ⟨c :: rest, position⟩ = some (c, ⟨rest, position.char c⟩) := rfl

/-- The next character is the first of the unread text. -/
theorem rest_of_next? {cursor behind : Cursor} {c : Char} (h : cursor.next? = some (c, behind)) :
    cursor.rest = c :: behind.rest := by
  obtain ⟨rest, position⟩ := cursor
  cases rest with
  | nil => cases h
  | cons first rest =>
    cases h
    rfl

/-- The place one byte further, or the end of the text. -/
def beyond (cursor : Cursor) : Position :=
  match cursor.rest with
  | [] => cursor.position
  | c :: _ => cursor.position.byte c

/-- Read the characters of a class. -/
def takeWhile (p : Char → Bool) : List Char → Position → List Char × Cursor
  | [], place => ([], ⟨[], place⟩)
  | c :: rest, place =>
    if p c then
      let (taken, cursor) := takeWhile p rest (place.char c)
      (c :: taken, cursor)
    else ([], ⟨c :: rest, place⟩)

/-- The four characters that may stand between two tokens. -/
def isSeparator (c : Char) : Bool := c == ' ' || c == '\n' || c == '\t' || c == '\r'

/-- The cursor behind the white space. -/
def skipBlank (cursor : Cursor) : Cursor := (takeWhile isSeparator cursor.rest cursor.position).2

/-- The decimal digits that come next. -/
def digits (cursor : Cursor) : List Char × Cursor :=
  takeWhile Char.isDigit cursor.rest cursor.position

/-- The end of the text. -/
def finish (cursor : Cursor) : Position := cursor.rest.foldl Position.char cursor.position

/-- The place a number of bytes further in an unread text; `none` if fewer remain. -/
def bytesAhead : List Char → Nat → Position → Option Position
  | _, 0, place => some place
  | [], _ + 1, _ => none
  | c :: rest, count + 1, place =>
    if count + 1 < c.utf8Size then some ⟨place.line, place.column + (count + 1)⟩
    else bytesAhead rest (count + 1 - c.utf8Size) (place.char c)

/-- Behind the last part of an object or array: skip white space and the closing bracket if it
comes next.  An array also skips a comma and the white space before it. -/
def settle (cursor : Cursor) (close : Char) : Position :=
  let cursor := cursor.skipBlank
  match cursor.next? with
  | none => cursor.position
  | some (c, behind) =>
    if c = close then behind.position
    else if c = ',' ∧ close = ']' then behind.skipBlank.position
    else cursor.position

end Cursor

end GraphSchema.Json
