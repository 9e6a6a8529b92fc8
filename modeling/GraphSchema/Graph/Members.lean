import GraphSchema.Fields
import GraphSchema.Graph.Substitution

/-!
# Members of graph types

The properties of an object are those of its bases, in base order, and then its own; a name
keeps its first place and takes its last symbol.  The properties of an instantiation are those
of its target, seen through it: a property symbol remembers the instantiation (`through`) whose
arguments its type is to be read with.
-/

namespace GraphSchema.Graph

/-- A symbol of a graph. -/
inductive Symbol where
  /-- The declaration of a type. -/
  | type (handle : Handle)
  /-- A property of an object, perhaps reached through an instantiation. -/
  | property (owner : Handle) (name : String) (through : Option Handle)
  deriving DecidableEq

/-- A property of `target` as seen through an instantiation of it. -/
def seenThrough (instantiation target : Handle) (pairs : Bindings) : Symbol → Query Symbol
  | .property owner name none =>
    return .property owner name (if owner = target then some instantiation else none)
  | .property owner name (some base) => do
    return .property owner name (some (← substitute pairs base))
  | symbol => return symbol

/-- Write the properties of a type into `known`. -/
def collectProperties : Nat → Handle → Fields Symbol → Query (Fields Symbol)
  | 0, _, _ => throw .exhausted
  | steps + 1, ty, known => do
    match ← definition ty with
    | .object decl =>
      let inherited ← decl.bases.foldlM (fun known base => collectProperties steps base known) known
      return decl.properties.foldl
        (fun known property => Fields.put known property.1 (.property ty property.1 none))
        inherited
    | .reference target _ =>
      let pairs ← bindings ty
      let inner ← collectProperties steps target []
      inner.foldlM
        (fun known entry => do
          return Fields.put known entry.1 (← seenThrough ty target pairs entry.2))
        known
    | _ => return known

/-- The properties of a type.  Between two objects on the way along base types there is at most
one instantiation, and no object comes twice. -/
def properties (ty : Handle) : Query (List Symbol) := do
  let fields ← collectProperties (2 * (← get).definitions.size + 2) ty []
  return fields.map Prod.snd

/-- The base types of an object or of an instantiation's target. -/
def basesOf (ty : Handle) : Query (List Handle) := do
  match (← definition ty).declaration? ty with
  | none => return []
  | some declaration =>
    match ← definition declaration with
    | .object decl => return decl.bases
    | _ => return []

/-- The declared type of a property of an object. -/
def declared? (graph : Graph) (owner : Handle) (name : String) : Option Handle :=
  match graph.definitions[owner]? with
  | some (.object decl) => Fields.get? decl.properties name
  | _ => none

/-- The type behind a symbol.  A property that is not declared has the unknown type, which is
reported. -/
def typeOfSymbol : Symbol → Query (Handle × List (Event Handle))
  | .type handle => return (handle, [])
  | .property owner name through => do
    match (← get).declared? owner name with
    | none => return (← unknownType, [.unknownProperty name owner])
    | some declared =>
      match through with
      | some instantiation => return (← substitute (← bindings instantiation) declared, [])
      | none => return (declared, [])

end GraphSchema.Graph
