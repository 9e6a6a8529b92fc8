/-!
# Signatures

A well-known container is told by its symbol name and by the names that its member table has to
contain, not by where it is declared.
-/

namespace GraphSchema

/-- A symbol name with the member names that go with it. -/
structure Signature where
  symbol : String
  members : List String
  deriving DecidableEq

namespace Signature

/-- The symbol name is this one and all members are there; there may be more. -/
def accepts (signature : Signature) (symbol : String) (members : List String) : Bool :=
  symbol == signature.symbol && signature.members.all (members.contains ·)

/-- The signature of arrays. -/
def array : Signature where
  symbol := "Array"
  members := ["length", "pop", "push", "join", "shift", "slice", "sort"]

/-- The signature of points in time. -/
def date : Signature where
  symbol := "Date"
  members :=
    ["toString", "toDateString", "toISOString", "toTimeString", "valueOf", "getDate", "getTime"]

/-- The signature of values that are still to come. -/
def promise : Signature where
  symbol := "Promise"
  members := ["catch", "then"]

end Signature

end GraphSchema
