import GraphSchema.Fields
import GraphSchema.Intrinsic

/-!
# Type-graph documents

A document declares types under ids.  A definition mentions other types by reference: in a
document by their ids, in a type graph by their handles, so `Definition` is generic in what a
mention is.

Documents are merged by `Document.merge`: a later definition replaces an earlier one of the same
id and takes its place.
-/

namespace GraphSchema

/-- The declaration of an object type. -/
structure ObjectDecl (ι : Type) where
  symbol : Option String
  /-- The declaration may carry base types. -/
  interface : Bool
  bases : List ι
  /-- The type parameters; where there are any, the declaration is generic. -/
  parameters : List ι
  /-- The data members with their types. -/
  properties : List (String × ι)
  /-- Further names of the symbol's member table, which have no type here. -/
  members : List String
  deriving DecidableEq

/-- The definition of a type. -/
inductive Definition (ι : Type) where
  | intrinsic (kind : Intrinsic)
  | object (decl : ObjectDecl ι)
  | tuple (elements : List ι)
  /-- A generic declaration applied to arguments. -/
  | reference (target : ι) (arguments : List ι)
  /-- A type without a shape of its own: a union, a function, a type parameter. -/
  | opaqueType (symbol : Option String)
  deriving DecidableEq

namespace Definition

variable {ι : Type}

/-- A definition is that of an object. -/
def isObject : Definition ι → Bool
  | object _ => true
  | _ => false

/-- The definition may carry base types. -/
def isInterface : Definition ι → Bool
  | object decl => decl.interface
  | _ => false

/-- The symbol name that a definition carries. -/
def symbolName? : Definition ι → Option String
  | object decl => decl.symbol
  | opaqueType symbol => symbol
  | _ => none

end Definition

/-- A type-graph document. -/
structure Document where
  types : Fields (Definition String)

namespace Document

/-- The document without types. -/
def empty : Document := ⟨[]⟩

/-- Later definitions replace earlier ones of the same id. -/
def merge (document later : Document) : Document := ⟨Fields.merge document.types later.types⟩

/-- The ids, in document order. -/
def ids (document : Document) : List String := Fields.keys document.types

end Document

/-! ## The spelling of a definition -/

/-- The tag that tells the form of a definition. -/
inductive Kind where
  | intrinsic
  | object
  | tuple
  | reference
  | opaqueType
  deriving DecidableEq

namespace Kind

/-- The spelling of a tag. -/
def name : Kind → String
  | intrinsic => "intrinsic"
  | object => "object"
  | tuple => "tuple"
  | reference => "reference"
  | opaqueType => "opaque"

/-- Every tag, in the order in which messages list them. -/
def all : List Kind := [intrinsic, object, tuple, reference, opaqueType]

/-- The tag with this spelling. -/
def ofName? (text : String) : Option Kind := all.find? fun kind => kind.name == text

end Kind

/-- A field of some form of definition. -/
inductive Field where
  | name
  | symbol
  | interface
  | bases
  | parameters
  | properties
  | members
  | elements
  | target
  | arguments
  deriving DecidableEq

namespace Field

/-- The key of a field. -/
def key : Field → String
  | name => "name"
  | symbol => "symbol"
  | interface => "interface"
  | bases => "bases"
  | parameters => "parameters"
  | properties => "properties"
  | members => "members"
  | elements => "elements"
  | target => "target"
  | arguments => "arguments"

/-- The field has no default. -/
def isRequired : Field → Bool
  | name | elements | target => true
  | _ => false

end Field

/-- The fields of a form, in declaration order. -/
def Kind.fields : Kind → List Field
  | intrinsic => [.name]
  | object => [.symbol, .interface, .bases, .parameters, .properties, .members]
  | tuple => [.elements]
  | reference => [.target, .arguments]
  | opaqueType => [.symbol]

end GraphSchema
