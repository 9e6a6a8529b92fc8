import GraphSchema.Literal.Basic
import GraphSchema.Schema

/-!
# Plain data

`Data` is what can be offered to the encoder of literal expressions: scalars, optional values,
sequences, maps and the forms of records and variants.  A map is the sequence of calls that
write it, keys and values in any order, since a writer of maps may interleave them as it likes.

JSON values and schemas are plain data (`Json.toData`, `Schema.toData`).
-/

namespace GraphSchema

/-- What a call on a map writes. -/
inductive MapRole where
  | key
  | value
  deriving DecidableEq

/-- Plain data. -/
inductive Data where
  /-- No value. -/
  | absent
  /-- A value that might have been absent. -/
  | present (value : Data)
  | unit
  | unitStruct (name : String)
  | bool (value : Bool)
  | integer (value : Int)
  /-- A single-precision number, by its bits. -/
  | single (bits : UInt32)
  | double (value : Binary64)
  | char (value : Char)
  | string (value : String)
  | bytes (contents : List UInt8)
  /-- Data that cannot be produced, for the reason given. -/
  | failure (reason : String)
  | unitVariant (variant : String)
  | newtype (value : Data)
  | newtypeVariant (variant : String) (value : Data)
  | sequence (elements : List Data)
  | tuple (elements : List Data)
  | tupleStruct (elements : List Data)
  | tupleVariant (variant : String) (elements : List Data)
  | map (calls : List (MapRole × Data))
  | record (fields : List (String × Data))
  | recordVariant (variant : String) (fields : List (String × Data))

namespace Data

/-- The two calls that write an entry of a map. -/
def entry (key : String) (value : Data) : List (MapRole × Data) :=
  [(.key, .string key), (.value, value)]

end Data

/-! ## JSON values as data -/

/-- A number as data. -/
def Number.toData : Number → Data
  | integer value => .integer value
  | float value => .double value

namespace Json

mutual

/-- A JSON value as data. -/
def toData : Json → Data
  | null => .unit
  | bool value => .bool value
  | number value => value.toData
  | string value => .string value
  | array elements => .sequence (elementsToData elements)
  | object entries => .map (entriesToCalls entries)

/-- Every element as data. -/
def elementsToData : List Json → List Data
  | [] => []
  | value :: rest => toData value :: elementsToData rest

/-- The calls that write the entries of an object. -/
def entriesToCalls : List (String × Json) → List (MapRole × Data)
  | [] => []
  | (key, value) :: rest => Data.entry key (toData value) ++ entriesToCalls rest

end

end Json

/-! ## Schemas as data -/

namespace Schema

/-- The calls that write a title. -/
def titleCalls : Option String → List (MapRole × Data)
  | some title => Data.entry "title" (.string title)
  | none => []

mutual

/-- A schema as data, in its wire form. -/
def toData : Schema → Data
  | any title => .map (Data.entry "type" (.string "any") ++ titleCalls title)
  | intrinsic kind => .map (Data.entry "type" (.string kind.name))
  | object title properties required =>
    .map (Data.entry "type" (.string "object") ++ titleCalls title ++
      Data.entry "properties" (.map (propertiesToCalls properties)) ++
      Data.entry "required" (.sequence (required.map .string)))
  | array items =>
    .map (Data.entry "type" (.string "array") ++ Data.entry "items" (toData items))
  | reference name => .map (Data.entry "$ref" (.string name))

/-- The calls that write the properties of a record. -/
def propertiesToCalls : List (String × Schema) → List (MapRole × Data)
  | [] => []
  | (name, schema) :: rest => Data.entry name (toData schema) ++ propertiesToCalls rest

end

end Schema

end GraphSchema
