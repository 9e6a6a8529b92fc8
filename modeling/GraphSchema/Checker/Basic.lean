import GraphSchema.Checker.Event
import GraphSchema.Intrinsic

/-!
# Type checkers

All that a resolution knows about types it learns from a checker, by asking a `Question` about a
type handle `τ`, a symbol `σ` or a site `ν`.  A checker may change its world `W` while it
answers, for instance when an answer needs a type that did not exist before.

Handles mean nothing beyond their identity.
-/

namespace GraphSchema

/-- Why a run can end without a result. -/
inductive Stop where
  /-- The bound on the nesting of calls was too small. -/
  | exhausted
  /-- A handle names no type of the checker. -/
  | dangling (handle : Nat)
  deriving DecidableEq

/-- The wording of a cause. -/
def Stop.message : Stop → String
  | exhausted => "the resolution came to no end"
  | dangling handle => "no type has the handle " ++ toString handle

/-- The shape of a type, as far as yes and no can tell it. -/
structure Flags where
  /-- The type is a record: an object, an interface, an instantiation or a tuple. -/
  object : Bool := false
  tuple : Bool := false
  /-- The type is generic: an instantiation or a generic definition. -/
  reference : Bool := false
  /-- The type may carry base types. -/
  interface : Bool := false
  deriving DecidableEq

/-- A question to a checker. -/
inductive Question (τ σ ν : Type) where
  | flags (ty : τ)
  | intrinsic (ty : τ)
  /-- The symbol that declares a type. -/
  | symbol (ty : τ)
  | symbolName (symbol : σ)
  /-- The names of a symbol's member table, where it has one. -/
  | memberNames (symbol : σ)
  /-- The properties of a type, inherited ones included. -/
  | properties (ty : τ)
  /-- The generic definition behind an instantiation. -/
  | target (ty : τ)
  | arguments (ty : τ)
  | bases (ty : τ)
  /-- The type of a member as seen from a site. -/
  | memberType (symbol : σ) (location : ν)
  /-- The type that a site denotes. -/
  | siteType (node : ν)
  /-- The identifier of a site, where it is a name. -/
  | siteName (node : ν)

namespace Question

variable {τ σ ν : Type}

/-- What a question is answered with. -/
@[reducible] def Answer : Question τ σ ν → Type
  | flags _ => Flags
  | intrinsic _ => Option Intrinsic
  | symbol _ => Option σ
  | symbolName _ => String
  | memberNames _ => Option (List String)
  | properties _ => List σ
  | target _ => Option τ
  | arguments _ => Option (List τ)
  | bases _ => Option (List τ)
  | memberType _ _ => τ
  | siteType _ => τ
  | siteName _ => Option String

end Question

/-- An answer, the world after it, and what there is to report. -/
structure Reply (W τ α : Type) where
  answer : α
  world : W
  notices : List (Event τ) := []

/-- A checker answers every question, in every state of its world, or says why it cannot. -/
structure Checker (W τ σ ν : Type) where
  reply : (question : Question τ σ ν) → W → Except Stop (Reply W τ question.Answer)

end GraphSchema
