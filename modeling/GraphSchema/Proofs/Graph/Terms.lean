import Mathlib
import GraphSchema.Graph.Checker
import GraphSchema.Proofs.Resolution.Value

/-!
# Types as terms

The handles of a type graph are given out in the order of the queries that need them.  What a
type is does not depend on that order: it is declared by the document, or it applies a declared
definition to arguments, or it is the one type of members that cannot be looked up.  A `Term`
says which of the three, and `Term.answers` gives the answers about terms over the graph `base`
of a document.  They follow the queries of a graph one by one, without a graph that grows.

The arguments of a term are smaller than the term, so substitution is by structure there.  Only
among the declared types can it come back to where it was, and only there it keeps a path.
-/

namespace GraphSchema

namespace Definition

variable {ι κ : Type}

/-- A definition with other mentions. -/
def map (f : ι → κ) : Definition ι → Definition κ
  | intrinsic kind => intrinsic kind
  | object decl =>
    object {
      symbol := decl.symbol
      interface := decl.interface
      bases := decl.bases.map f
      parameters := decl.parameters.map f
      properties := Fields.mapValues f decl.properties
      members := decl.members }
  | tuple elements => tuple (elements.map f)
  | reference target arguments => reference (f target) (arguments.map f)
  | opaqueType symbol => opaqueType symbol

end Definition

namespace Graph

/-- A type by what it is made of. -/
inductive Term where
  /-- A type of the document. -/
  | declared (handle : Handle)
  /-- A definition applied to arguments, where the document declares no such instantiation. -/
  | applied (target : Handle) (arguments : List Term)
  /-- The type of members that cannot be looked up. -/
  | unknown

namespace Term

mutual

/-- Terms can be told apart. -/
def decEq : (first second : Term) → Decidable (first = second)
  | declared handle, declared other => decidable_of_iff (handle = other) (by simp)
  | applied target arguments, applied other others =>
    have := decEqList arguments others
    decidable_of_iff (target = other ∧ arguments = others) (by simp)
  | unknown, unknown => isTrue rfl
  | declared _, applied .. => isFalse nofun
  | declared _, unknown => isFalse nofun
  | applied .., declared _ => isFalse nofun
  | applied .., unknown => isFalse nofun
  | unknown, declared _ => isFalse nofun
  | unknown, applied .. => isFalse nofun

/-- Lists of terms can be told apart. -/
def decEqList : (first second : List Term) → Decidable (first = second)
  | [], [] => isTrue rfl
  | term :: rest, other :: others =>
    have := decEq term other
    have := decEqList rest others
    decidable_of_iff (term = other ∧ rest = others) (by simp)
  | [], _ :: _ => isFalse nofun
  | _ :: _, [] => isFalse nofun

end

instance : DecidableEq Term := decEq

/-- A symbol of the answers about terms. -/
inductive Symbol where
  /-- The declaration of a type. -/
  | type (ty : Term)
  /-- A property of an object, perhaps reached through an instantiation. -/
  | property (owner : Term) (name : String) (through : Option Term)
  deriving DecidableEq

/-- Parameters with the arguments that they stand for; the first pair for a parameter counts. -/
abbrev Bindings := List (Term × Term)

/-- The handle of a declared type. -/
def handle? : Term → Option Handle
  | declared handle => some handle
  | _ => none

variable (base : Graph)

/-- The definition behind a term. -/
def definition : Term → Definition Term
  | declared handle => (base.definitions[handle]?.map (Definition.map declared)).getD
      (.opaqueType none)
  | applied target arguments => .reference (declared target) arguments
  | unknown => .opaqueType none

theorem definition_declared {base : Graph} {handle : Handle} {found : Definition Handle}
    (h : base.definitions[handle]? = some found) :
    definition base (declared handle) = found.map declared := by
  rw [definition, h, Option.map_some, Option.getD_some]

/-! ## Substitution -/

/-- The handle under which the document declares an instantiation. -/
def declaredInstance? (target : Handle) (arguments : List Term) : Option Handle :=
  (arguments.mapM handle?).bind fun handles => base.instances.lookup (target, handles)

/-- The instantiation of a definition: the declared one where there is one. -/
def instantiate (target : Handle) (arguments : List Term) : Term :=
  ((declaredInstance? base target arguments).map declared).getD (applied target arguments)

/-- The pairs that an instantiation binds. -/
def bindings (instantiation : Term) : Bindings :=
  match definition base instantiation with
  | .reference target arguments =>
    match definition base target with
    | .object decl => decl.parameters.zip arguments
    | _ => []
  | _ => []

/-- Replace bound parameters in a declared type; `path` holds the instantiations on the way
down. -/
def substituteDeclared (pairs : Bindings) : Nat → List Handle → Handle → Term
  | 0, _, handle => declared handle
  | steps + 1, path, handle =>
    match pairs.lookup (declared handle) with
    | some argument => argument
    | none =>
      match base.definitions[handle]? with
      | some (.reference target arguments) =>
        if pairs.isEmpty ∨ handle ∈ path then declared handle
        else
          let replaced := arguments.map (substituteDeclared pairs steps (handle :: path))
          if replaced = arguments.map declared then declared handle
          else instantiate base target replaced
      | _ => declared handle

mutual

/-- Replace bound parameters in a term. -/
def substitute (pairs : Bindings) : Term → Term
  | declared handle => substituteDeclared base pairs (base.definitions.size + 1) [] handle
  | applied target arguments =>
    match pairs.lookup (applied target arguments) with
    | some argument => argument
    | none =>
      if pairs.isEmpty then applied target arguments
      else
        let replaced := substituteList pairs arguments
        if replaced = arguments then applied target arguments
        else instantiate base target replaced
  | unknown => (pairs.lookup unknown).getD unknown

/-- Replace bound parameters in each of several terms. -/
def substituteList (pairs : Bindings) : List Term → List Term
  | [] => []
  | term :: rest => substitute pairs term :: substituteList pairs rest

end

theorem substituteList_eq (pairs : Bindings) (terms : List Term) :
    substituteList base pairs terms = terms.map (substitute base pairs) := by
  induction terms with
  | nil => rfl
  | cons term rest ih => rw [substituteList, ih, List.map_cons]

/-! ## Members -/

/-- A property of `target` as seen through an instantiation of it. -/
def seenThrough (instantiation target : Term) (pairs : Bindings) : Symbol → Symbol
  | .property owner name none =>
    .property owner name (if owner = target then some instantiation else none)
  | .property owner name (some inner) =>
    .property owner name (some (substitute base pairs inner))
  | symbol => symbol

/-- Write the properties of a type into `known`. -/
def collectProperties : Nat → Term → Fields Symbol → Fields Symbol
  | 0, _, known => known
  | steps + 1, ty, known =>
    match definition base ty with
    | .object decl =>
      decl.properties.foldl
        (fun known property => Fields.put known property.1 (.property ty property.1 none))
        (decl.bases.foldl (fun known base => collectProperties steps base known) known)
    | .reference target _ =>
      (collectProperties steps target []).foldl
        (fun known entry =>
          Fields.put known entry.1 (seenThrough base ty target (bindings base ty) entry.2))
        known
    | _ => known

/-- The properties of a type. -/
def properties (ty : Term) : List Symbol :=
  (collectProperties base (2 * base.definitions.size + 3) ty []).map Prod.snd

/-- The declared type of a property of an object. -/
def declared? (owner : Term) (name : String) : Option Term :=
  match definition base owner with
  | .object decl => Fields.get? decl.properties name
  | _ => none

/-- The type behind a symbol. -/
def typeOfSymbol : Symbol → Term
  | .type ty => ty
  | .property owner name through =>
    match declared? base owner name with
    | none => unknown
    | some member =>
      match through with
      | some instantiation => substitute base (bindings base instantiation) member
      | none => member

/-! ## Answers -/

/-- The symbol of a type; an instantiation has that of its target. -/
def symbol (ty : Term) : Option Symbol :=
  match definition base ty with
  | .reference target _ => (definition base target).symbolName?.map fun _ => .type target
  | definition => definition.symbolName?.map fun _ => .type ty

/-- The id of a declared type; other types have none. -/
def key : Term → String
  | declared handle => base.key handle
  | _ => ""

/-- The name of a symbol; a declaration without one has its id. -/
def symbolName : Symbol → String
  | .type ty => (definition base ty).symbolName?.getD (key base ty)
  | .property _ name _ => name

/-- The member table of a symbol. -/
def memberNames : Symbol → Option (List String)
  | .type ty =>
    match definition base ty with
    | .object decl => some (Fields.keys decl.properties ++ decl.members)
    | _ => none
  | .property .. => none

/-- The shape of a type. -/
def flags (ty : Term) : Flags :=
  match definition base ty with
  | .intrinsic _ | .opaqueType _ => {}
  | .object decl =>
    { object := true, reference := !decl.parameters.isEmpty, interface := decl.interface }
  | .tuple _ => { object := true, tuple := true }
  | .reference target _ =>
    { object := true, reference := true, interface := (definition base target).isInterface }

/-- The generic definition behind a type; its own where it is one. -/
def target (ty : Term) : Option Term :=
  match definition base ty with
  | .reference target _ => some target
  | .object decl => if decl.parameters.isEmpty then none else some ty
  | _ => none

/-- The arguments of a type; a generic definition has its parameters. -/
def arguments (ty : Term) : Option (List Term) :=
  match definition base ty with
  | .reference _ arguments => some arguments
  | .tuple elements => some elements
  | .object decl => if decl.parameters.isEmpty then none else some decl.parameters
  | _ => none

/-- The base types of an object or of an instantiation's target. -/
def basesOf (ty : Term) : List Term :=
  match definition base ty with
  | .object decl => decl.bases
  | .reference target _ =>
    match definition base target with
    | .object decl => decl.bases
    | _ => []
  | _ => []

/-- The base types of an interface; those of an instantiation carry its arguments. -/
def bases (ty : Term) : Option (List Term) :=
  if (flags base ty).interface then
    some ((basesOf base ty).map (substitute base (bindings base ty)))
  else none

/-- The kind of an intrinsic type. -/
def intrinsic (ty : Term) : Option Intrinsic :=
  match definition base ty with
  | .intrinsic kind => some kind
  | _ => none

/-- The answers about terms over the graph of a document. -/
def answers : Answers Term Symbol Site
  | .flags ty => flags base ty
  | .intrinsic ty => intrinsic base ty
  | .symbol ty => symbol base ty
  | .symbolName symbol => symbolName base symbol
  | .memberNames symbol => memberNames base symbol
  | .properties ty => properties base ty
  | .target ty => target base ty
  | .arguments ty => arguments base ty
  | .bases ty => bases base ty
  | .memberType symbol _ => typeOfSymbol base symbol
  | .siteType node => declared node.handle
  | .siteName node => node.name?

end Term

end Graph

end GraphSchema
