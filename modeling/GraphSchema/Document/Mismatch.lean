import GraphSchema.Document.Basic
import GraphSchema.Json.Fault
import GraphSchema.Json.Layout
import GraphSchema.Text.Shown

/-!
# Where a value is not a document

`Mismatch` lists the ways in which a JSON value fails to be a type-graph document.  A `LoadFault`
joins one of them, or a fault of the text, with its path in the value and, where there is a
text, its place.
-/

namespace GraphSchema

/-- What stands in a value, as messages name it. -/
def Json.found : Json → String
  | .null => "null"
  | .bool value => "boolean `" ++ Json.boolText value ++ "`"
  | .number (.integer value) => "integer `" ++ toString value ++ "`"
  | .number (.float value) => "floating point `" ++ Decimal.plainStyle.text value ++ "`"
  | .string value => "string " ++ Text.Shown.quote value
  | .array _ => "sequence"
  | .object _ => "map"

/-- What a document wants at a place. -/
inductive Wanted where
  | document
  | map
  | definition
  | kind
  | string
  | boolean
  | sequence
  | intrinsicName
  | unit
  deriving DecidableEq

/-- The wording of what is wanted. -/
def Wanted.text : Wanted → String
  | document => "struct GraphDocument"
  | map => "a map"
  | definition => "internally tagged enum TypeDef"
  | kind => "variant identifier"
  | string => "a string"
  | boolean => "a boolean"
  | sequence => "a sequence"
  | intrinsicName => "string or map"
  | unit => "unit"

/-- The number of elements that an array should have had. -/
inductive WantedLength where
  /-- The one element of a document that is spelled as an array. -/
  | document
  /-- Fewer than a document that is spelled as an array has. -/
  | fewer
  /-- The fields of a form of definition. -/
  | fields (kind : Kind)
  /-- No more elements than there are fields. -/
  | atMost (count : Nat)
  deriving DecidableEq

/-- A count of elements. -/
def elementsText (count : Nat) : String :=
  toString count ++ (if count = 1 then " element" else " elements")

/-- The name of a form in messages about its length. -/
def Kind.title : Kind → String
  | intrinsic => "Intrinsic"
  | object => "Object"
  | tuple => "Tuple"
  | reference => "Reference"
  | opaqueType => "Opaque"

/-- The wording of a wanted length. -/
def WantedLength.text : WantedLength → String
  | document => "struct GraphDocument with 1 element"
  | fewer => "fewer elements in array"
  | fields kind =>
    "struct variant TypeDef::" ++ kind.title ++ " with " ++ elementsText kind.fields.length
  | atMost count => elementsText count ++ " in sequence"

/-- A way in which a value fails to be a document. -/
inductive Mismatch where
  | missingField (key : String)
  | duplicateField (key : String)
  | unknownKind (text : String)
  | unknownIntrinsic (text : String)
  | wrongType (found : Json) (wanted : Wanted)
  /-- An intrinsic name spelled as a map has exactly one key. -/
  | notSingleKey
  | wrongLength (found : Nat) (wanted : WantedLength)

/-- Names between backquotes, separated by commas. -/
def namesText (names : List String) : String :=
  String.intercalate ", " (names.map fun name => "`" ++ name ++ "`")

/-- The wording of a mismatch. -/
def Mismatch.message : Mismatch → String
  | missingField key => "missing field `" ++ key ++ "`"
  | duplicateField key => "duplicate field `" ++ key ++ "`"
  | unknownKind text =>
    "unknown variant `" ++ text ++ "`, expected one of " ++ namesText (Kind.all.map Kind.name)
  | unknownIntrinsic text =>
    "unknown variant `" ++ text ++ "`, expected one of " ++
      namesText (Intrinsic.all.map Intrinsic.name)
  | wrongType found wanted => "invalid type: " ++ found.found ++ ", expected " ++ wanted.text
  | notSingleKey => "invalid value: map, expected map with a single key"
  | wrongLength found wanted =>
    "invalid length " ++ toString found ++ ", expected " ++ wanted.text

/-- Why a document cannot be loaded. -/
inductive LoadCause where
  | malformed (fault : Json.SyntaxFault)
  | mismatch (mismatch : Mismatch)

/-- A document that cannot be loaded: where in the value, why, and at which place of the text,
if there is a text. -/
structure LoadFault where
  path : Json.Path
  cause : LoadCause
  position : Option Json.Position

namespace LoadFault

/-- The fault of a part, seen from the whole. -/
def within (segment : Json.Segment) (fault : LoadFault) : LoadFault :=
  { fault with path := segment :: fault.path }

/-- A fault of the text. -/
def ofRead (fault : Json.ReadFault) : LoadFault :=
  ⟨fault.path, .malformed fault.fault, some fault.position⟩

/-- The wording of a fault. -/
def message (fault : LoadFault) : String :=
  let cause :=
    match fault.cause with
    | .malformed fault => fault.message
    | .mismatch mismatch => mismatch.message
  let place :=
    match fault.position with
    | some position => position.text
    | none => ""
  "at JSON path " ++ Json.Path.text fault.path ++ " → " ++ cause ++ place

end LoadFault

end GraphSchema
