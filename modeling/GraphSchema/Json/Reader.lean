import GraphSchema.Json.Lexeme

/-!
# Reading JSON texts

`Json.readValue` reads one value and leaves the cursor behind it, with the entries of an object
as they stand in the text, repeated keys included; `Json.skipValue` passes over one value.
`Json.read` reads a whole text.  At most `room` brackets may be open at a time, and numbers are
read with the rounding that is asked for.

`nextElement` and `nextKey` are the steps from one part of an array or object to the next, for
readers that look at the parts one by one.
-/

namespace GraphSchema.Json

/-- How many brackets of a text may be open at a time. -/
def depthLimit : Nat := 127

/-- What comes next within brackets: a part, or the end. -/
inductive Next (α : Type) where
  | item (value : α) (cursor : Cursor)
  | closed (cursor : Cursor)

/-- The next element of an array, as the cursor before it. -/
def nextElement (first : Bool) (cursor : Cursor) : Except ReadFault (Next Unit) :=
  let cursor := cursor.skipBlank
  match cursor.next? with
  | none => fail .endInList cursor.position
  | some (c, behind) =>
    if c = ']' then .ok (.closed behind)
    else if first then .ok (.item () cursor)
    else if c = ',' then
      let cursor := behind.skipBlank
      match cursor.next? with
      | none => fail .endInValue cursor.position
      | some (']', _) => fail .trailingComma cursor.beyond
      | some _ => .ok (.item () cursor)
    else fail .expectedListCommaOrEnd cursor.beyond

/-- The next key of an object, with the cursor behind the key. -/
def nextKey (first : Bool) (cursor : Cursor) : Except ReadFault (Next String) :=
  let key (cursor : Cursor) : Except ReadFault (Next String) := do
    match cursor.next? with
    | some ('"', behind) =>
      let (name, last) ← readString .keep behind
      return .item name last
    | _ => fail .keyNotString cursor.beyond
  let step : Except ReadFault (Next String) :=
    let cursor := cursor.skipBlank
    match cursor.next? with
    | none => fail .endInObject cursor.position
    | some (c, behind) =>
      if c = '\x7d' then .ok (.closed behind)
      else if first then key cursor
      else if c = ',' then
        let cursor := behind.skipBlank
        match cursor.next? with
        | none => fail .endInValue cursor.position
        | some ('\x7d', _) => fail .trailingComma cursor.beyond
        | some _ => key cursor
      else fail .expectedObjectCommaOrEnd cursor.beyond
  step.mapError (ReadFault.within .unread)

/-- The colon between a key and its value. -/
def readColon (cursor : Cursor) : Except ReadFault Cursor :=
  let cursor := cursor.skipBlank
  match cursor.next? with
  | none => fail .endInObject cursor.position
  | some (':', behind) => .ok behind
  | some _ => fail .expectedColon cursor.beyond

/-! ## Values that are kept -/

mutual

/-- Read one value.  Every two steps read at least one character. -/
def readValueIn (rounding : Rounding) : Nat → Nat → Cursor → Except ReadFault (Json × Cursor)
  | 0, _, cursor => fail .endInValue cursor.position
  | steps + 1, room, cursor =>
    let cursor := cursor.skipBlank
    match cursor.next? with
    | none => fail .endInValue cursor.position
    | some (c, behind) =>
      match c with
      | 'n' => do return (null, ← readWord ['u', 'l', 'l'] behind)
      | 't' => do return (bool true, ← readWord ['r', 'u', 'e'] behind)
      | 'f' => do return (bool false, ← readWord ['a', 'l', 's', 'e'] behind)
      | '"' => do
        let (text, last) ← readString .keep behind
        return (string text, last)
      | '[' =>
        if room = 0 then fail .tooDeep cursor.beyond
        else do
          let (elements, last) ← readElementsIn rounding steps (room - 1) true 0 behind
          return (array elements, last)
      | '\x7b' =>
        if room = 0 then fail .tooDeep cursor.beyond
        else do
          let (entries, last) ← readEntriesIn rounding steps (room - 1) true behind
          return (object entries, last)
      | _ =>
        if c = '-' ∨ c.isDigit then do
          let (numeral, last) ← readNumeral .endInValue cursor
          return (number (← numeral.value rounding last.position), last)
        else fail .expectedValue cursor.beyond

/-- Read the elements of an array from the one at `place` on. -/
def readElementsIn (rounding : Rounding) :
    Nat → Nat → Bool → Nat → Cursor → Except ReadFault (List Json × Cursor)
  | 0, _, _, _, cursor => fail .endInList cursor.position
  | steps + 1, room, first, place, cursor => do
    match ← nextElement first cursor with
    | .closed last => return ([], last)
    | .item _ cursor =>
      let (value, behind) ←
        (readValueIn rounding steps room cursor).mapError (ReadFault.within (.index place))
      let (more, last) ← readElementsIn rounding steps room false (place + 1) behind
      return (value :: more, last)

/-- Read the entries of an object. -/
def readEntriesIn (rounding : Rounding) :
    Nat → Nat → Bool → Cursor → Except ReadFault (List (String × Json) × Cursor)
  | 0, _, _, cursor => fail .endInObject cursor.position
  | steps + 1, room, first, cursor => do
    match ← nextKey first cursor with
    | .closed last => return ([], last)
    | .item key cursor =>
      let cursor ← readColon cursor
      let (value, behind) ←
        (readValueIn rounding steps room cursor).mapError (ReadFault.within (.key key))
      let (more, last) ← readEntriesIn rounding steps room false behind
      return ((key, value) :: more, last)

end

/-- As many steps as reading the rest of a text can take. -/
def Cursor.steps (cursor : Cursor) : Nat := 2 * cursor.rest.length + 2

/-- Read one value with at most `room` open brackets. -/
def readValue (rounding : Rounding) (room : Nat) (cursor : Cursor) :
    Except ReadFault (Json × Cursor) :=
  readValueIn rounding cursor.steps room cursor

/-- Read a whole text as one value, with repeated keys merged. -/
def read (rounding : Rounding) (room : Nat) (text : String) : Except ReadFault Json := do
  let (value, last) ← readValue rounding room (.start text)
  let last := last.skipBlank
  if last.rest.isEmpty then return value.mergeRepeats
  else fail .trailingCharacters last.beyond

/-! ## Values that are passed over -/

mutual

/-- Pass over one value. -/
def skipValueIn : Nat → Cursor → Except ReadFault Cursor
  | 0, cursor => fail .endInValue cursor.position
  | steps + 1, cursor =>
    let cursor := cursor.skipBlank
    match cursor.next? with
    | none => fail .endInValue cursor.position
    | some (c, behind) =>
      match c with
      | 'n' => readWord ['u', 'l', 'l'] behind
      | 't' => readWord ['r', 'u', 'e'] behind
      | 'f' => readWord ['a', 'l', 's', 'e'] behind
      | '"' => (readString .skip behind).map (·.2)
      | '[' =>
        let inner := behind.skipBlank
        match inner.next? with
        | none => fail .endInList inner.position
        | some (']', last) => .ok last
        | some _ => skipElementsIn steps inner
      | '\x7b' =>
        let inner := behind.skipBlank
        match inner.next? with
        | none => fail .endInObject inner.position
        | some ('\x7d', last) => .ok last
        | some _ => skipEntriesIn steps inner
      | _ =>
        if c = '-' ∨ c.isDigit then (readNumeral .invalidNumber cursor).map (·.2)
        else fail .expectedValue cursor.beyond

/-- Pass over the elements of an array from a first one on. -/
def skipElementsIn : Nat → Cursor → Except ReadFault Cursor
  | 0, cursor => fail .endInList cursor.position
  | steps + 1, cursor => do
    let behind := (← skipValueIn steps cursor).skipBlank
    match behind.next? with
    | none => fail .endInList behind.position
    | some (']', last) => return last
    | some (',', cursor) => skipElementsIn steps cursor
    | some _ => fail .expectedListCommaOrEnd behind.beyond

/-- Pass over the entries of an object from a first one on. -/
def skipEntriesIn : Nat → Cursor → Except ReadFault Cursor
  | 0, cursor => fail .endInObject cursor.position
  | steps + 1, cursor => do
    let cursor := cursor.skipBlank
    match cursor.next? with
    | none => fail .endInObject cursor.position
    | some ('"', behind) =>
      let (_, behind) ← readString .skip behind
      let behind := (← skipValueIn steps (← readColon behind)).skipBlank
      match behind.next? with
      | none => fail .endInObject behind.position
      | some ('\x7d', last) => return last
      | some (',', cursor) => skipEntriesIn steps cursor
      | some _ => fail .expectedObjectCommaOrEnd behind.beyond
    | some _ => fail .keyNotString cursor.beyond

end

/-- Pass over one value. -/
def skipValue (cursor : Cursor) : Except ReadFault Cursor := skipValueIn cursor.steps cursor

end GraphSchema.Json
