import GraphSchema.Graph.Basic

/-!
# Substitution

An instantiation binds the parameters of its target to its arguments.  `Graph.substitute`
replaces bound parameters in a type, also within the arguments of instantiations; the arguments
put in are not looked into again.  A type in which nothing changes is kept, and a changed
instantiation is looked up or added.

Instantiations may contain themselves through their arguments.  One that is met again on the
way down stays as it is.
-/

namespace GraphSchema.Graph

/-- Parameters with the arguments that they stand for; the first pair for a parameter counts. -/
abbrev Bindings := List (Handle × Handle)

/-- The pairs that an instantiation binds. -/
def bindings (instantiation : Handle) : Query Bindings := do
  match ← definition instantiation with
  | .reference target arguments =>
    match ← definition target with
    | .object decl => return decl.parameters.zip arguments
    | _ => return []
  | _ => return []

/-- Replace bound parameters in a type; `path` holds the instantiations on the way down. -/
def substituteIn (pairs : Bindings) : Nat → List Handle → Handle → Query Handle
  | 0, _, _ => throw .exhausted
  | steps + 1, path, ty =>
    match pairs.lookup ty with
    | some argument => return argument
    | none => do
      match ← definition ty with
      | .reference target arguments =>
        if pairs.isEmpty ∨ ty ∈ path then return ty
        else
          let replaced ← arguments.mapM (substituteIn pairs steps (ty :: path))
          if replaced = arguments then return ty else instantiate target replaced
      | _ => return ty

/-- Replace bound parameters in a type.  A way down without repetition is no longer than there
are types. -/
def substitute (pairs : Bindings) (ty : Handle) : Query Handle := do
  substituteIn pairs ((← get).definitions.size + 1) [] ty

end GraphSchema.Graph
