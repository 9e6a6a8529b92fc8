/-!
# Intrinsic kinds

The ten primitive leaves of a type graph, with the one spelling that documents, schemas and
messages share.
-/

namespace GraphSchema

/-- A primitive leaf type. -/
inductive Intrinsic where
  | string
  | number
  | boolean
  | null
  | undefined
  | bigint
  | symbol
  | void
  | never
  | unknown
  deriving DecidableEq

namespace Intrinsic

/-- The spelling of a kind. -/
def name : Intrinsic → String
  | string => "string"
  | number => "number"
  | boolean => "boolean"
  | null => "null"
  | undefined => "undefined"
  | bigint => "bigint"
  | symbol => "symbol"
  | void => "void"
  | never => "never"
  | unknown => "unknown"

/-- Every kind, in the order in which messages list them. -/
def all : List Intrinsic :=
  [string, number, boolean, null, undefined, bigint, symbol, void, never, unknown]

/-- The kind with this spelling. -/
def ofName? (text : String) : Option Intrinsic := all.find? fun kind => kind.name == text

/-- Reading a kind's own spelling gives the kind back. -/
@[simp] theorem ofName?_name (kind : Intrinsic) : ofName? kind.name = some kind := by
  cases kind <;> decide

end Intrinsic

end GraphSchema
