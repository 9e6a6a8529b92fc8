import GraphSchema.Document.OfText
import GraphSchema.Files.Basic
import GraphSchema.Graph.OfDocument
import GraphSchema.Literal.Encoding

/-!
# Failures

All the ways in which the operations of the library fail, with their wording.
-/

namespace GraphSchema

/-- A failure of an operation. -/
inductive Failure where
  /-- Data without a literal form. -/
  | unsupported (cause : Unsupported)
  /-- A document that is not a type graph, or a site that names no type. -/
  | graph (fault : GraphFault)
  /-- A document that cannot be read; `source` is the path of its file, if it has one. -/
  | document (source : Option String) (fault : LoadFault)
  /-- A file that cannot be accessed. -/
  | file (fault : FileFault)

/-- The wording of a failure. -/
def Failure.message : Failure → String
  | unsupported cause => cause.message
  | graph fault => fault.message
  | document none fault => fault.message
  | document (some path) fault => path ++ ": " ++ fault.message
  | file fault => fault.message

variable {m : Type → Type} [Monad m]

/-- The document in a file. -/
def Document.ofFile (files : FileSystem m) (path : String) : m (Except Failure Document) := do
  match ← files.read path with
  | .error fault => return .error (.file fault)
  | .ok text => return (Document.ofText text).mapError (.document (some path))

end GraphSchema
