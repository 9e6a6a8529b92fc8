import GraphSchema.Graph.Members
import GraphSchema.Graph.OfDocument
import GraphSchema.Text.Alphanumeric
import GraphSchema.Text.Blank

/-!
# A graph as a checker

The answers of a type graph.  A site names one of the graph's types by its id, which may
be written like an instantiation; its identifier is the part before the first `<`.
-/

namespace GraphSchema.Graph

/-- A site: a text that names a type. -/
structure Site where
  text : String
  handle : Handle

/-- How messages name a site as the source of a mention. -/
def siteSource : String := "<type reference>"

/-- The site with this text, which has to name a type. -/
def site (graph : Graph) (text : String) : Except GraphFault Site :=
  match graph.handle? text with
  | some handle => .ok ⟨text, handle⟩
  | none => .error (.unknownType text siteSource)

/-- A character of a dotted name. -/
def isNamePart (c : Char) : Bool :=
  Text.isAlphanumeric c || c == '_' || c == '$' || c == '.'

/-- The identifier of a site, where it has the form of a dotted name. -/
def Site.name? (site : Site) : Option String :=
  let head := Text.trim (site.text.toList.takeWhile (· != '<'))
  if !head.isEmpty && head.all isNamePart then some (String.ofList head) else none

/-- The symbol of a type; an instantiation has that of its target. -/
def symbol (ty : Handle) : Query (Option Symbol) := do
  match ← definition ty with
  | .reference target _ =>
    return ((← definition target).symbolName?).map fun _ => .type target
  | definition => return definition.symbolName?.map fun _ => .type ty

/-- The name of a symbol; a declaration without one has its id. -/
def symbolName : Symbol → Query String
  | .type handle => do
    let definition ← definition handle
    return definition.symbolName?.getD ((← get).key handle)
  | .property _ name _ => return name

/-- The member table of a symbol: the names of the properties and the further members. -/
def memberNames : Symbol → Query (Option (List String))
  | .type handle => do
    match ← definition handle with
    | .object decl => return some (Fields.keys decl.properties ++ decl.members)
    | _ => return none
  | .property .. => return none

/-- The shape of a type. -/
def flags (ty : Handle) : Query Flags := do
  match ← definition ty with
  | .intrinsic _ | .opaqueType _ => return {}
  | .object decl =>
    return { object := true, reference := !decl.parameters.isEmpty, interface := decl.interface }
  | .tuple _ => return { object := true, tuple := true }
  | .reference target _ =>
    return { object := true, reference := true, interface := (← definition target).isInterface }

/-- The generic definition behind a type; its own where it is one. -/
def target (ty : Handle) : Query (Option Handle) := do
  match ← definition ty with
  | .reference target _ => return some target
  | .object decl => return if decl.parameters.isEmpty then none else some ty
  | _ => return none

/-- The arguments of a type; a generic definition has its parameters. -/
def arguments (ty : Handle) : Query (Option (List Handle)) := do
  match ← definition ty with
  | .reference _ arguments => return some arguments
  | .tuple elements => return some elements
  | .object decl => return if decl.parameters.isEmpty then none else some decl.parameters
  | _ => return none

/-- The base types of an interface; those of an instantiation carry its arguments. -/
def bases (ty : Handle) : Query (Option (List Handle)) := do
  if (← flags ty).interface then
    let pairs ← bindings ty
    return some (← (← basesOf ty).mapM (substitute pairs))
  else return none

/-- The kind of an intrinsic type. -/
def intrinsic (ty : Handle) : Query (Option Intrinsic) := do
  match ← definition ty with
  | .intrinsic kind => return some kind
  | _ => return none

/-- An answer without anything to report. -/
def quietly {α : Type} (query : Query α) (graph : Graph) : Except Stop (Reply Graph Handle α) := do
  let (answer, graph) ← query.run graph
  return { answer, world := graph }

/-- The checker whose world is a type graph. -/
def checker : Checker Graph Handle Symbol Site where
  reply
    | .flags ty => quietly (flags ty)
    | .intrinsic ty => quietly (intrinsic ty)
    | .symbol ty => quietly (symbol ty)
    | .symbolName symbol => quietly (symbolName symbol)
    | .memberNames symbol => quietly (memberNames symbol)
    | .properties ty => quietly (properties ty)
    | .target ty => quietly (target ty)
    | .arguments ty => quietly (arguments ty)
    | .bases ty => quietly (bases ty)
    | .memberType symbol _ => fun graph => do
      let ((answer, notices), graph) ← (typeOfSymbol symbol).run graph
      return { answer, world := graph, notices }
    | .siteType node => quietly (pure node.handle)
    | .siteName node => quietly (pure node.name?)

end GraphSchema.Graph
