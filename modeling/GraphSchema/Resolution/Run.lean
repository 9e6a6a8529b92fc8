import GraphSchema.Checker.Basic
import GraphSchema.Schema

/-!
# Runs

The state of a resolution: the checker's world, the types in progress, the nesting depth, and
what has been reported.  `guarded` marks a type as in progress for the length of a step; a type
that is in progress already is not entered again but answered with a back-reference.
-/

namespace GraphSchema

/-- The state of a resolution. -/
structure Run (W τ : Type) where
  world : W
  /-- The types in progress, the latest first. -/
  active : List τ := []
  depth : Nat := 0
  /-- The events so far, the latest first. -/
  log : List (Event τ) := []

/-- A step of a resolution. -/
abbrev Resolution (W τ α : Type) := StateT (Run W τ) (Except Stop) α

namespace Run

variable {W τ : Type}

/-- The state before anything has happened. -/
def fresh (world : W) : Run W τ := { world }

/-- The events in the order in which they happened. -/
def events (run : Run W τ) : List (Event τ) := run.log.reverse

end Run

namespace Resolution

variable {W τ σ ν α : Type}

/-- Report an event. -/
def report (event : Event τ) : Resolution W τ Unit :=
  modify fun run => { run with log := event :: run.log }

/-- Put a question to the checker. -/
def ask (checker : Checker W τ σ ν) (question : Question τ σ ν) :
    Resolution W τ question.Answer := fun run => do
  let reply ← checker.reply question run.world
  return (reply.answer,
    { run with world := reply.world, log := reply.notices.reverse ++ run.log })

/-- The name of the symbol of a type. -/
def symbolName (checker : Checker W τ σ ν) (ty : τ) : Resolution W τ (Option String) := do
  match ← ask checker (.symbol ty) with
  | some symbol => return some (← ask checker (.symbolName symbol))
  | none => return none

/-- The name of the type of a site: that of its symbol, else the site's identifier. -/
def typeName (checker : Checker W τ σ ν) (ty : τ) (node : ν) :
    Resolution W τ (Option String) := do
  match ← symbolName checker ty with
  | some name => return some name
  | none => ask checker (.siteName node)

/-- The schema of a type that is met again: a reference to the place where it was entered. -/
def backReference (checker : Checker W τ σ ν) (ty : τ) : Resolution W τ Schema := do
  let name ← symbolName checker ty
  report (.recursion ty name)
  return .reference ("#" ++ name.getD "")

/-- Carry out a step with a type marked as in progress, unless it is so already. -/
def guarded [DecidableEq τ] (checker : Checker W τ σ ν) (ty : τ)
    (step : Resolution W τ (Option Schema)) : Resolution W τ (Option Schema) := do
  if ty ∈ (← get).active then return some (← backReference checker ty)
  else
    modify fun run => { run with active := ty :: run.active }
    let schema ← step
    modify fun run => { run with active := run.active.erase ty }
    return schema

end Resolution

end GraphSchema
