import GraphSchema.Intrinsic
import GraphSchema.Json.Basic

/-!
# Schemas

A schema is what a type resolves to.  `Schema.toJson` is its wire form: `type` for a shape,
`$ref` for a named fragment, titles only where there is one.
-/

namespace GraphSchema

/-- The shape of a type. -/
inductive Schema where
  /-- Anything, as far as is known. -/
  | any (title : Option String)
  | intrinsic (kind : Intrinsic)
  /-- A record; every known property is required. -/
  | object (title : Option String) (properties : List (String × Schema)) (required : List String)
  | array (items : Schema)
  /-- A fragment defined elsewhere. -/
  | reference (name : String)

namespace Schema

/-- The fragment that stands for a point in time. -/
def dateReference : String := "runtime#date"

/-- The fragment that stands for a value that is still to come. -/
def promiseReference : String := "runtime#promise"

/-- The schema is a record. -/
def isObject : Schema → Bool
  | object .. => true
  | _ => false

/-- The title, which only records and unknown shapes carry. -/
def title? : Schema → Option String
  | any title | object title _ _ => title
  | _ => none

/-- The entry of a title. -/
def titleEntry : Option String → List (String × Json)
  | some title => [("title", .string title)]
  | none => []

mutual

/-- The wire form. -/
def toJson : Schema → Json
  | any title => .object (("type", .string "any") :: titleEntry title)
  | intrinsic kind => .object [("type", .string kind.name)]
  | object title properties required =>
    .object (("type", .string "object") :: (titleEntry title ++
      [("properties", .object (propertiesToJson properties)),
       ("required", .array (required.map .string))]))
  | array items => .object [("type", .string "array"), ("items", toJson items)]
  | reference name => .object [("$ref", .string name)]

/-- The wire form of every property. -/
def propertiesToJson : List (String × Schema) → List (String × Json)
  | [] => []
  | (name, schema) :: rest => (name, toJson schema) :: propertiesToJson rest

end

end Schema

end GraphSchema
