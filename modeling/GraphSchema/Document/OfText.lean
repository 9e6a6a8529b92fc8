import GraphSchema.Document.OfJson
import GraphSchema.Json.Reader

/-!
# Documents from texts

A document is read from its text without building the value of the whole: the definitions are
examined one by one as they are met, other entries of the document are passed over, and what
follows the document is not looked at.  Numbers are read stepwise.

A mismatch is placed where reading stood when it came up.  For a wrong scalar that is behind it
and for a wrong array or object before it; within brackets it is behind the closing bracket if
that comes next.
-/

namespace GraphSchema

open Json (Cursor ReadFault)

/-- A mismatch at a place of the text. -/
def mismatchAt {α : Type} (mismatch : Mismatch) (place : Json.Position) : Except LoadFault α :=
  .error ⟨[], .mismatch mismatch, some place⟩

/-- A step of the reader of texts. -/
def lexical {α : Type} (reading : Except ReadFault α) : Except LoadFault α :=
  reading.mapError LoadFault.ofRead

/-- What stands at a cursor is not what is wanted: a scalar is read to its end, an array or
object is not entered. -/
def refuse {α : Type} (wanted : Wanted) (cursor : Cursor) : Except LoadFault α :=
  match cursor.next? with
  | some ('[', _) => mismatchAt (.wrongType (.array []) wanted) cursor.position
  | some ('\x7b', _) => mismatchAt (.wrongType (.object []) wanted) cursor.position
  | _ => do
    let (scalar, behind) ← lexical (Json.readValue .stepwise 0 cursor)
    mismatchAt (.wrongType scalar wanted) behind.position

/-- The tag of a definition. -/
def readTag (cursor : Cursor) : Except LoadFault (Kind × Cursor) :=
  let cursor := cursor.skipBlank
  match cursor.next? with
  | some ('"', _) => do
    let (tag, behind) ← lexical (Json.readValue .stepwise 0 cursor)
    match tag.toKind with
    | .ok kind => return (kind, behind)
    | .error mismatch => mismatchAt mismatch behind.position
  | _ => refuse .kind cursor

/-- The entries of a definition, with its tag taken out. -/
def readTagged (room : Nat) :
    Nat → Bool → Option Kind → Cursor →
      Except LoadFault (Option Kind × List (String × Json) × Cursor)
  | 0, _, _, cursor => lexical (Json.fail .endInObject cursor.position)
  | steps + 1, first, tag, cursor => do
    match ← lexical (Json.nextKey first cursor) with
    | .closed behind => return (tag, [], behind)
    | .item key cursor =>
      if key = tagKey then
        if tag.isSome then mismatchAt (.duplicateField tagKey) (cursor.settle '\x7d')
        else do
          let cursor ← lexical (Json.readColon cursor)
          let (kind, behind) ← (readTag cursor).mapError (LoadFault.within (.key key))
          readTagged room steps false (some kind) behind
      else do
        let cursor ← lexical (Json.readColon cursor)
        let (value, behind) ←
          (lexical (Json.readValue .stepwise room cursor)).mapError (LoadFault.within (.key key))
        let (tag, entries, last) ← readTagged room steps false tag behind
        return (tag, (key, value) :: entries, last)

/-- The tag and the contents of a definition. -/
def readDefinition (room : Nat) (cursor : Cursor) :
    Except LoadFault (Kind × Content × Cursor) :=
  let cursor := cursor.skipBlank
  match cursor.next? with
  | some ('\x7b', behind) =>
    if room = 0 then lexical (Json.fail .tooDeep cursor.beyond)
    else do
      let (tag, entries, last) ← readTagged (room - 1) cursor.steps true none behind
      match tag with
      | some kind => return (kind, .entries entries, last)
      | none => mismatchAt (.missingField tagKey) last.position
  | some ('[', behind) =>
    if room = 0 then lexical (Json.fail .tooDeep cursor.beyond)
    else do
      match ← lexical (Json.nextElement true behind) with
      | .closed last => mismatchAt (.missingField tagKey) last.position
      | .item _ first =>
        let (kind, behind) ← (readTag first).mapError (LoadFault.within (.index 0))
        let (values, last) ←
          lexical (Json.readElementsIn .stepwise cursor.steps (room - 1) false 1 behind)
        return (kind, .positions values, last)
  | _ => refuse .definition cursor

/-- The definitions of a document, from one entry on. -/
def readTypesFrom (room : Nat) :
    Nat → Bool → Cursor → Except LoadFault (List (String × Definition String) × Cursor)
  | 0, _, cursor => lexical (Json.fail .endInObject cursor.position)
  | steps + 1, first, cursor => do
    match ← lexical (Json.nextKey first cursor) with
    | .closed behind => return ([], behind)
    | .item id cursor =>
      let cursor ← lexical (Json.readColon cursor)
      let (definition, behind) ← Except.mapError (LoadFault.within (.key id)) do
        let (kind, content, behind) ← readDefinition room cursor
        match kind.readContent content with
        | .ok definition => return (definition, behind)
        | .error mismatch => mismatchAt mismatch (behind.settle '\x7d')
      let (more, last) ← readTypesFrom room steps false behind
      return ((id, definition) :: more, last)

/-- The definitions of a document. -/
def readTypes (room : Nat) (cursor : Cursor) :
    Except LoadFault (Fields (Definition String) × Cursor) :=
  let cursor := cursor.skipBlank
  match cursor.next? with
  | some ('\x7b', behind) =>
    if room = 0 then lexical (Json.fail .tooDeep cursor.beyond)
    else do
      let (types, last) ← readTypesFrom (room - 1) cursor.steps true behind
      return (Fields.ofEntries types, last)
  | _ => refuse .map cursor

/-- The entries of a document; `types` is what has been read so far. -/
def readRoot (room : Nat) :
    Nat → Bool → Option (Fields (Definition String)) → Cursor → Except LoadFault Document
  | 0, _, _, cursor => lexical (Json.fail .endInObject cursor.position)
  | steps + 1, first, types, cursor => do
    match ← lexical (Json.nextKey first cursor) with
    | .closed behind =>
      match types with
      | some types => return ⟨types⟩
      | none => mismatchAt (.missingField typesKey) behind.position
    | .item key cursor =>
      if key = typesKey then
        if types.isSome then mismatchAt (.duplicateField typesKey) (cursor.settle '\x7d')
        else do
          let cursor ← lexical (Json.readColon cursor)
          let (read, behind) ← (readTypes room cursor).mapError (LoadFault.within (.key key))
          readRoot room steps false (some read) behind
      else do
        let cursor ← lexical (Json.readColon cursor)
        let behind ←
          (lexical (Json.skipValue cursor)).mapError (LoadFault.within (.key key))
        readRoot room steps false types behind

/-- The bracket behind the one element of a document that is spelled as an array. -/
def closeRoot (cursor : Cursor) : Except ReadFault Unit :=
  let cursor := cursor.skipBlank
  match cursor.next? with
  | none => Json.fail .endInList cursor.position
  | some (']', _) => .ok ()
  | some (',', behind) =>
    let cursor := behind.skipBlank
    match cursor.next? with
    | some (']', _) => Json.fail .trailingComma cursor.beyond
    | _ => Json.fail .trailingCharacters cursor.beyond
  | some _ => Json.fail .trailingCharacters cursor.beyond

/-- The document that a text begins with. -/
def Document.ofText (text : String) : Except LoadFault Document :=
  let cursor := (Cursor.start text).skipBlank
  let room := Json.depthLimit - 1
  match cursor.next? with
  | some ('\x7b', behind) => readRoot room cursor.steps true none behind
  | some ('[', behind) => do
    match ← lexical (Json.nextElement true behind) with
    | .closed last => mismatchAt (.wrongLength 0 .document) last.position
    | .item _ first =>
      let (types, behind) ← (readTypes room first).mapError (LoadFault.within (.index 0))
      lexical (closeRoot behind)
      return ⟨types⟩
  | _ => refuse .document cursor

end GraphSchema
