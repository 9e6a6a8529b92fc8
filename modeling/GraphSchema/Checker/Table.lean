import GraphSchema.Checker.Basic

/-!
# Checkers spelled out as tables

A table gives the answers about each of `n` types in a row of its own.  Handles are places in
the table, so every handle has a row, and the checker has no world to change.
-/

namespace GraphSchema

/-- The answers about one of `n` types. -/
structure Row (n : Nat) where
  flags : Flags := {}
  intrinsic : Option Intrinsic := none
  /-- The name of the type's symbol. -/
  symbol : Option String := none
  /-- The symbol's member table. -/
  members : Option (List String) := none
  /-- The properties with their types. -/
  properties : List (String × Fin n) := []
  target : Option (Fin n) := none
  arguments : Option (List (Fin n)) := none
  bases : Option (List (Fin n)) := none

/-- A row for each of `n` types. -/
abbrev Table (n : Nat) := Fin n → Row n

namespace Table

variable {n : Nat}

/-- A symbol of a table. -/
inductive Symbol (n : Nat) where
  /-- The declaration of a type. -/
  | type (handle : Fin n)
  | property (name : String) (type : Fin n)
  deriving DecidableEq

/-- A site: the type that it denotes and its identifier. -/
structure Site (n : Nat) where
  type : Fin n
  name : Option String

/-- An answer that nothing depends on. -/
def fixed {α : Type} (answer : α) (world : Unit) : Except Stop (Reply Unit (Fin n) α) :=
  .ok { answer, world }

/-- The checker that answers from a table. -/
def checker (table : Table n) : Checker Unit (Fin n) (Symbol n) (Site n) where
  reply
    | .flags ty => fixed (table ty).flags
    | .intrinsic ty => fixed (table ty).intrinsic
    | .symbol ty => fixed ((table ty).symbol.map fun _ => .type ty)
    | .symbolName (.type ty) => fixed ((table ty).symbol.getD "")
    | .symbolName (.property name _) => fixed name
    | .memberNames (.type ty) => fixed (table ty).members
    | .memberNames (.property ..) => fixed none
    | .properties ty => fixed ((table ty).properties.map fun entry => .property entry.1 entry.2)
    | .target ty => fixed (table ty).target
    | .arguments ty => fixed (table ty).arguments
    | .bases ty => fixed (table ty).bases
    | .memberType (.type ty) _ => fixed ty
    | .memberType (.property _ ty) _ => fixed ty
    | .siteType node => fixed node.type
    | .siteName node => fixed node.name

end Table

end GraphSchema
