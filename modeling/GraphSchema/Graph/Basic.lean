import GraphSchema.Checker.Basic
import GraphSchema.Document.Basic

/-!
# Type graphs

A type graph holds the definitions of a document with every id replaced by a handle.  The
document's types have the first handles, in document order; behind them stand the types that
queries add, so a handle once given out keeps its meaning.

Two kinds of type are added.  An instantiation is added once for each target and argument list
(`Graph.instantiate`), and one opaque type stands for all members that cannot be looked up
(`Graph.unknownType`).
-/

namespace GraphSchema

/-- A type of a graph, by its place. -/
abbrev Handle := Nat

/-- A generic definition with the arguments that it is applied to. -/
abbrev Application := Handle × List Handle

/-- A type graph. -/
structure Graph where
  /-- The ids of the document's types. -/
  ids : List String
  definitions : Array (Definition Handle)
  /-- The handle of each instantiation; of several for one application, the first counts. -/
  instances : List (Application × Handle)
  /-- The type of members that cannot be looked up, once there is need of it. -/
  unknown : Option Handle

/-- A query of a graph, which may add types to it. -/
abbrev Graph.Query (α : Type) := StateT Graph (Except Stop) α

/-- The object behind a definition: itself, or the target of an instantiation. -/
def Definition.declaration? (handle : Handle) : Definition Handle → Option Handle
  | object _ => some handle
  | reference target _ => some target
  | _ => none

namespace Graph

/-- The number of types that the document declares. -/
def size (graph : Graph) : Nat := graph.ids.length

/-- The handle of an id. -/
def handle? (graph : Graph) (id : String) : Option Handle := graph.ids.idxOf? id

/-- The id of a document's type; other types have none. -/
def key (graph : Graph) (handle : Handle) : String := graph.ids[handle]?.getD ""

/-- The definition behind a handle. -/
def definition (handle : Handle) : Query (Definition Handle) := do
  match (← get).definitions[handle]? with
  | some definition => return definition
  | none => throw (.dangling handle)

/-- Add a type. -/
def add (definition : Definition Handle) : Query Handle := do
  let graph ← get
  set { graph with definitions := graph.definitions.push definition }
  return graph.definitions.size

/-- The instantiation of a definition with arguments, added unless it exists. -/
def instantiate (target : Handle) (arguments : List Handle) : Query Handle := do
  match (← get).instances.lookup (target, arguments) with
  | some handle => return handle
  | none =>
    let handle ← add (.reference target arguments)
    modify fun graph =>
      { graph with instances := ((target, arguments), handle) :: graph.instances }
    return handle

/-- The type of members that cannot be looked up, added at the first need. -/
def unknownType : Query Handle := do
  match (← get).unknown with
  | some handle => return handle
  | none =>
    let handle ← add (.opaqueType none)
    modify fun graph => { graph with unknown := some handle }
    return handle

end Graph

end GraphSchema
