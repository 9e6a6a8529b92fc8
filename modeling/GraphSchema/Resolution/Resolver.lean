import GraphSchema.Recognition.Shipped
import GraphSchema.Resolution.Run

/-!
# Resolving types

A type is resolved by the first recognizer that claims it.  From the nesting limit on, and where
no recognizer claims the type, it resolves to anything.  Recognizers come back to the resolver
for nested types, so the number of nested calls is bounded by a number (`fuel`); a bound that is
too small ends the run with `Stop.exhausted` and never changes a result.
-/

namespace GraphSchema

/-- What a resolution works with. -/
structure Resolver (W τ σ ν : Type) where
  checker : Checker W τ σ ν
  registry : Registry τ σ ν
  options : Options

variable {W τ σ ν α : Type}

/-- Carry out an inquiry; `nested` resolves nested types. -/
def Inquiry.carryOut [DecidableEq τ] (checker : Checker W τ σ ν)
    (nested : τ → Resolution W τ Schema) {α : Type} :
    Inquiry τ σ ν α → Resolution W τ α
  | done result => pure result
  | ask question next => do
    (next (← Resolution.ask checker question)).carryOut checker nested
  | resolve ty next => do
    (next (← nested ty)).carryOut checker nested
  | guarded ty body next => do
    let schema ← Resolution.guarded checker ty (body.carryOut checker nested)
    (next schema).carryOut checker nested
  | exhausted => throw .exhausted

namespace Resolver

variable [DecidableEq τ]

/-- Resolve a type by the first recognizer that claims it. -/
def dispatch (resolver : Resolver W τ σ ν) (nested : τ → Resolution W τ Schema) (fuel : Nat)
    (location : ν) (ty : τ) (title : Option String) :
    Registry τ σ ν → Resolution W τ Schema
  | [] => do
    Resolution.report (.unrecognized ty title)
    return .any title
  | recognizer :: rest => do
    let inquiry := recognizer.recognize fuel ⟨resolver.options, location⟩ ty
    match ← inquiry.carryOut resolver.checker nested with
    | some schema =>
      Resolution.report (.recognized recognizer.name ty)
      return schema
    | none => dispatch resolver nested fuel location ty title rest

/-- Resolve a type as seen from a location.  The title is for the case that nothing is known
about the type. -/
def resolveType (resolver : Resolver W τ σ ν) :
    Nat → ν → τ → Option String → Resolution W τ Schema
  | 0, _, _, _ => throw .exhausted
  | fuel + 1, location, ty, title => do
    let depth := (← get).depth
    if resolver.options.maxDepth ≤ depth then
      Resolution.report (.depthLimit ty depth)
      return .any title
    else
      modify fun run => { run with depth := depth + 1 }
      let nested := fun ty => resolveType resolver fuel location ty none
      let schema ← Resolution.guarded resolver.checker ty do
        return some (← dispatch resolver nested fuel location ty title resolver.registry)
      modify fun run => { run with depth }
      return schema.getD (.any none)

/-- Resolve a site; the root is labelled with the best name there is. -/
def resolveNode (resolver : Resolver W τ σ ν) (fuel : Nat) (node : ν) :
    Resolution W τ Schema := do
  let ty ← Resolution.ask resolver.checker (.siteType node)
  let name ← Resolution.typeName resolver.checker ty node
  Resolution.report (.started ty name)
  resolver.resolveType fuel node ty name

/-- More nested calls than any resolution that comes to an end in practice makes. -/
def ample : Nat := Nat.pow 2 60

/-- The resolver with the shipped recognizers. -/
def shipped (checker : Checker W τ σ ν) (options : Options) : Resolver W τ σ ν :=
  { checker, registry := Registry.shipped, options }

end Resolver

end GraphSchema
