import GraphSchema.Decimal.Binary64
import GraphSchema.Fields

/-!
# JSON values

A value keeps the entries of an object in the order of the text.  An integer between `-2^63`
and `2^64 - 1` is kept exactly, every other number as a double-precision one.

`Json.mergeRepeats` is the reading of an object in which a repeated key keeps its first place
and takes its last value.
-/

namespace GraphSchema

/-- A number of a JSON value. -/
inductive Number where
  | integer (value : Int)
  | float (value : Binary64)
  deriving DecidableEq

/-- A JSON value. -/
inductive Json where
  | null
  | bool (value : Bool)
  | number (value : Number)
  | string (value : String)
  | array (elements : List Json)
  | object (entries : List (String × Json))
  deriving Inhabited

namespace Json

mutual

/-- In every object, a repeated key keeps its first place and takes its last value. -/
def mergeRepeats : Json → Json
  | array elements => array (mergeRepeatsList elements)
  | object entries => object (Fields.ofEntries (mergeRepeatsEntries entries))
  | leaf => leaf

/-- `mergeRepeats` on every element. -/
def mergeRepeatsList : List Json → List Json
  | [] => []
  | value :: rest => mergeRepeats value :: mergeRepeatsList rest

/-- `mergeRepeats` on the value of every entry. -/
def mergeRepeatsEntries : List (String × Json) → List (String × Json)
  | [] => []
  | (key, value) :: rest => (key, mergeRepeats value) :: mergeRepeatsEntries rest

end

end Json

end GraphSchema
