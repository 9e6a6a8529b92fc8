import GraphSchema.Document.Mismatch

/-!
# Definitions from their fields

The contents of a definition besides its tag are either entries by key, unknown ones ignored, or
values in declaration order, the last of which may be missing.  `Kind.readContent` builds the
definition.  Contents are examined in the order in which they stand, so the first fault is the
one that stands first.
-/

namespace GraphSchema

/-- The contents of a definition. -/
inductive Content where
  | entries (entries : List (String × Json))
  | positions (values : List Json)

/-- The fields of a definition that have been read. -/
structure Draft where
  name : Option Intrinsic := none
  symbol : Option (Option String) := none
  interface : Option Bool := none
  bases : Option (List String) := none
  parameters : Option (List String) := none
  properties : Option (List (String × String)) := none
  members : Option (List String) := none
  elements : Option (List String) := none
  target : Option String := none
  arguments : Option (List String) := none

namespace Json

/-- A string. -/
def toText : Json → Except Mismatch String
  | .string text => .ok text
  | other => .error (.wrongType other .string)

/-- A string, or null for none. -/
def toOptionalText : Json → Except Mismatch (Option String)
  | .null => .ok none
  | other => other.toText.map some

/-- A truth value. -/
def toFlag : Json → Except Mismatch Bool
  | .bool value => .ok value
  | other => .error (.wrongType other .boolean)

/-- A list of strings. -/
def toTexts : Json → Except Mismatch (List String)
  | .array elements => elements.mapM toText
  | other => .error (.wrongType other .sequence)

/-- Strings by key. -/
def toNamedTexts : Json → Except Mismatch (List (String × String))
  | .object entries => do
    let texts ← entries.mapM fun entry => do return (entry.1, ← entry.2.toText)
    return Fields.ofEntries texts
  | other => .error (.wrongType other .map)

/-- A value that stands for the absence of contents. -/
def toUnit : Json → Except Mismatch Unit
  | .null => .ok ()
  | .object [] => .ok ()
  | other => .error (.wrongType other .unit)

/-- The kind with a spelling. -/
def intrinsicNamed (text : String) : Except Mismatch Intrinsic :=
  match Intrinsic.ofName? text with
  | some kind => .ok kind
  | none => .error (.unknownIntrinsic text)

/-- The name of an intrinsic kind: its spelling, or a map from its spelling to nothing. -/
def toIntrinsic : Json → Except Mismatch Intrinsic
  | .string text => intrinsicNamed text
  | .object [(text, value)] => do
    let kind ← intrinsicNamed text
    value.toUnit
    return kind
  | .object _ => .error .notSingleKey
  | other => .error (.wrongType other .intrinsicName)

/-- The tag of a definition. -/
def toKind : Json → Except Mismatch Kind
  | .string text =>
    match Kind.ofName? text with
    | some kind => .ok kind
    | none => .error (.unknownKind text)
  | other => .error (.wrongType other .kind)

end Json

namespace Draft

/-- The field has been read. -/
def has (draft : Draft) : Field → Bool
  | .name => draft.name.isSome
  | .symbol => draft.symbol.isSome
  | .interface => draft.interface.isSome
  | .bases => draft.bases.isSome
  | .parameters => draft.parameters.isSome
  | .properties => draft.properties.isSome
  | .members => draft.members.isSome
  | .elements => draft.elements.isSome
  | .target => draft.target.isSome
  | .arguments => draft.arguments.isSome

/-- Read a field. -/
def read (draft : Draft) (field : Field) (value : Json) : Except Mismatch Draft :=
  match field with
  | .name => do return { draft with name := some (← value.toIntrinsic) }
  | .symbol => do return { draft with symbol := some (← value.toOptionalText) }
  | .interface => do return { draft with interface := some (← value.toFlag) }
  | .bases => do return { draft with bases := some (← value.toTexts) }
  | .parameters => do return { draft with parameters := some (← value.toTexts) }
  | .properties => do return { draft with properties := some (← value.toNamedTexts) }
  | .members => do return { draft with members := some (← value.toTexts) }
  | .elements => do return { draft with elements := some (← value.toTexts) }
  | .target => do return { draft with target := some (← value.toText) }
  | .arguments => do return { draft with arguments := some (← value.toTexts) }

/-- Read entries by key; unknown keys are passed over, known ones may stand once. -/
def readEntries (kind : Kind) : Draft → List (String × Json) → Except Mismatch Draft
  | draft, [] => .ok draft
  | draft, (key, value) :: rest =>
    match kind.fields.find? fun field => field.key == key with
    | none => readEntries kind draft rest
    | some field =>
      if draft.has field then .error (.duplicateField key)
      else do readEntries kind (← draft.read field value) rest

/-- Read values in declaration order; `count` of them have been read. -/
def readPositions (kind : Kind) (count : Nat) :
    Draft → List Field → List Json → Except Mismatch Draft
  | draft, [], [] => .ok draft
  | _, [], values@(_ :: _) => .error (.wrongLength (count + values.length) (.atMost count))
  | draft, field :: fields, [] =>
    if field.isRequired then .error (.wrongLength count (.fields kind))
    else readPositions kind count draft fields []
  | draft, field :: fields, value :: values => do
    readPositions kind (count + 1) (← draft.read field value) fields values

/-- A field without a default has to be there. -/
def require {α : Type} (field : Field) : Option α → Except Mismatch α
  | some value => .ok value
  | none => .error (.missingField field.key)

/-- The definition of this form that the fields make up. -/
def finish (draft : Draft) : Kind → Except Mismatch (Definition String)
  | .intrinsic => do return .intrinsic (← require .name draft.name)
  | .object => .ok (.object
      { symbol := draft.symbol.getD none
        interface := draft.interface.getD false
        bases := draft.bases.getD []
        parameters := draft.parameters.getD []
        properties := draft.properties.getD []
        members := draft.members.getD [] })
  | .tuple => do return .tuple (← require .elements draft.elements)
  | .reference => do
    return .reference (← require .target draft.target) (draft.arguments.getD [])
  | .opaqueType => .ok (.opaqueType (draft.symbol.getD none))

end Draft

/-- The definition of a form with these contents. -/
def Kind.readContent (kind : Kind) : Content → Except Mismatch (Definition String)
  | .entries entries => do (← Draft.readEntries kind {} entries).finish kind
  | .positions values => do (← Draft.readPositions kind 0 {} kind.fields values).finish kind

end GraphSchema
