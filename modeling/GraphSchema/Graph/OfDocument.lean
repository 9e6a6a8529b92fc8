import GraphSchema.Graph.Basic

/-!
# Graphs of documents

`Graph.ofDocument` accepts a document when every id that it mentions is declared, every
reference targets an object, and no object is reached again along its base types.  The
definitions are looked at in document order, each from left to right, and the base types after
all of them; the first fault is reported.
-/

namespace GraphSchema

/-- Why a document is not a type graph. -/
inductive GraphFault where
  /-- `id` is mentioned in the definition of `source` and not declared. -/
  | unknownType (id source : String)
  /-- The reference `id` targets a type that is not an object. -/
  | invalidTarget (id target : String)
  /-- The object `id` is its own base, directly or through others. -/
  | cyclicBases (id : String)
  deriving DecidableEq

/-- The wording of a fault. -/
def GraphFault.message : GraphFault → String
  | unknownType id source =>
    "type `" ++ id ++ "` referenced from `" ++ source ++ "` is not defined in the type graph"
  | invalidTarget id target =>
    "reference `" ++ id ++ "` targets `" ++ target ++ "`, which is not an object declaration"
  | cyclicBases id => "base types of `" ++ id ++ "` form a cycle"

namespace Document

/-- The handle of an id that the definition of `source` mentions. -/
def lookup (document : Document) (source id : String) : Except GraphFault Handle :=
  match document.ids.idxOf? id with
  | some handle => .ok handle
  | none => .error (.unknownType id source)

/-- An id is that of an object. -/
def declaresObject (document : Document) (id : String) : Bool :=
  match Fields.get? document.types id with
  | some definition => definition.isObject
  | none => false

/-- A definition with handles in place of ids. -/
def link (document : Document) (source : String) :
    Definition String → Except GraphFault (Definition Handle)
  | .intrinsic kind => .ok (.intrinsic kind)
  | .object decl => do
    let bases ← decl.bases.mapM (document.lookup source)
    let parameters ← decl.parameters.mapM (document.lookup source)
    let properties ← decl.properties.mapM fun property => do
      return (property.1, ← document.lookup source property.2)
    return .object { decl with bases, parameters, properties }
  | .tuple elements => do return .tuple (← elements.mapM (document.lookup source))
  | .reference target arguments => do
    let handle ← document.lookup source target
    if document.declaresObject target then
      return .reference handle (← arguments.mapM (document.lookup source))
    else throw (.invalidTarget source target)
  | .opaqueType symbol => .ok (.opaqueType symbol)

end Document

/-! ## Base types -/

/-- What a walk along base types comes to. -/
inductive BaseWalk where
  /-- No object is met twice on a path. -/
  | clear
  /-- An object is met again on the path that led from it. -/
  | cycle (declaration : Handle)
  /-- The bound on the length of a path was too small. -/
  | exhausted
  deriving DecidableEq

namespace BaseWalk

/-- The base types of an object. -/
def basesOf (definitions : Array (Definition Handle)) (handle : Handle) : List Handle :=
  match definitions[handle]? with
  | some (.object decl) => decl.bases
  | _ => []

/-- The object behind a handle. -/
def declaration? (definitions : Array (Definition Handle)) (handle : Handle) : Option Handle :=
  definitions[handle]?.bind (Definition.declaration? handle)

/-- The first result that is not clear. -/
def first {α : Type} (walk : α → BaseWalk) : List α → BaseWalk
  | [] => clear
  | item :: rest =>
    match walk item with
    | clear => first walk rest
    | found => found

/-- Walk along all base types of a type, depth first; `path` holds the objects on the way. -/
def visit (definitions : Array (Definition Handle)) : Nat → List Handle → Handle → BaseWalk
  | 0, _, _ => exhausted
  | steps + 1, path, handle =>
    match declaration? definitions handle with
    | none => clear
    | some declaration =>
      if declaration ∈ path then cycle declaration
      else
        first (visit definitions steps (declaration :: path)) (basesOf definitions declaration)

/-- Walk along the base types of every type.  A path without repetition is no longer than there
are types. -/
def visitAll (definitions : Array (Definition Handle)) : BaseWalk :=
  first (visit definitions (definitions.size + 1) []) (List.range definitions.size)

end BaseWalk

namespace Graph

/-- The applications of the document, each with the handle that declares it. -/
def declaredInstances (definitions : List (Definition Handle)) : List (Application × Handle) :=
  definitions.zipIdx.filterMap fun (definition, handle) =>
    match definition with
    | .reference target arguments => some ((target, arguments), handle)
    | _ => none

/-- The graph of a document. -/
def ofDocument (document : Document) : Except GraphFault Graph := do
  let definitions ← document.types.mapM fun entry => document.link entry.1 entry.2
  match BaseWalk.visitAll definitions.toArray with
  | .clear =>
    return ⟨document.ids, definitions.toArray, declaredInstances definitions, none⟩
  | .cycle declaration => throw (.cyclicBases (document.ids[declaration]?.getD ""))
  | .exhausted => throw (.cyclicBases "")

end Graph

end GraphSchema
