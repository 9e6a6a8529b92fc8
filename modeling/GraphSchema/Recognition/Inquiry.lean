import GraphSchema.Checker.Basic
import GraphSchema.Schema

/-!
# Inquiries

A recognizer looks at a type by way of an inquiry: it puts questions to the checker, has other
types resolved, and marks types as being in progress while it looks into them.  An inquiry is
the tree of these steps with everything that can come back; it has no other access to the
resolution that carries it out.
-/

namespace GraphSchema

/-- How generic instantiations are resolved. -/
inductive GenericMode where
  /-- By their generic definition; the arguments are dropped, except those of arrays. -/
  | target
  /-- By the members of the instantiation itself. -/
  | instantiated
  deriving DecidableEq

/-- How types are resolved. -/
structure Options where
  generics : GenericMode := .target
  /-- The nesting from which on a type is resolved to anything. -/
  maxDepth : Nat := 64
  deriving DecidableEq

/-- What a recognizer is told besides the type: the options, and the site that the
resolution set out from. -/
structure Context (ν : Type) where
  options : Options
  location : ν

/-- The steps of a recognizer. -/
inductive Inquiry (τ σ ν : Type) : Type → Type 1 where
  /-- The inquiry is over. -/
  | done {α : Type} (result : α) : Inquiry τ σ ν α
  /-- Ask the checker. -/
  | ask {α : Type} (question : Question τ σ ν) (next : question.Answer → Inquiry τ σ ν α) :
      Inquiry τ σ ν α
  /-- Resolve a nested type through all recognizers. -/
  | resolve {α : Type} (ty : τ) (next : Schema → Inquiry τ σ ν α) : Inquiry τ σ ν α
  /-- Carry out `body` with a type marked as in progress; where it is so already, the result is
  a back-reference. -/
  | guarded {α : Type} (ty : τ) (body : Inquiry τ σ ν (Option Schema))
      (next : Option Schema → Inquiry τ σ ν α) : Inquiry τ σ ν α
  /-- The bound on the nesting of the recognizer's own calls was too small. -/
  | exhausted {α : Type} : Inquiry τ σ ν α

namespace Inquiry

variable {τ σ ν α β : Type}

/-- Go on with the result of an inquiry. -/
def andThen : Inquiry τ σ ν α → (α → Inquiry τ σ ν β) → Inquiry τ σ ν β
  | done result, rest => rest result
  | ask question next, rest => ask question fun answer => (next answer).andThen rest
  | resolve ty next, rest => resolve ty fun schema => (next schema).andThen rest
  | guarded ty body next, rest => guarded ty body fun schema => (next schema).andThen rest
  | exhausted, _ => exhausted

instance : Monad (Inquiry τ σ ν) where
  pure := done
  bind := andThen

/-- Ask one question. -/
def question (question : Question τ σ ν) : Inquiry τ σ ν question.Answer := ask question done

/-- Resolve one type. -/
def schemaOf (ty : τ) : Inquiry τ σ ν Schema := resolve ty done

/-- Carry out one inquiry with a type marked as in progress. -/
def within (ty : τ) (body : Inquiry τ σ ν (Option Schema)) : Inquiry τ σ ν (Option Schema) :=
  guarded ty body done

end Inquiry

/-- A recognizer: a name for reports, and the inquiry by which it claims a type with a schema or
leaves it to others.  The number bounds the nesting of its own calls. -/
structure Recognizer (τ σ ν : Type) where
  name : String
  recognize : Nat → Context ν → τ → Inquiry τ σ ν (Option Schema)

/-- Recognizers in the order in which they are tried; the first to claim a type wins. -/
abbrev Registry (τ σ ν : Type) := List (Recognizer τ σ ν)

namespace Registry

variable {τ σ ν : Type}

/-- The names of the recognizers. -/
def names (registry : Registry τ σ ν) : List String := registry.map Recognizer.name

end Registry

end GraphSchema
