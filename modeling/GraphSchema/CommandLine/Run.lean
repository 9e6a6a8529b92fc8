import GraphSchema.CommandLine.Arguments
import GraphSchema.Document.OfText
import GraphSchema.Glob.Search
import GraphSchema.Graph.Checker
import GraphSchema.Json.Pointer
import GraphSchema.Literal.Encoding
import GraphSchema.Resolution.Resolver

/-!
# Running the command line

The documents are found, read and merged, the type is resolved, and the schema is written to a
file or to the standard output.  A failure is told as a list of texts, the circumstances first
and the cause last.
-/

namespace GraphSchema.CommandLine

/-- The texts that tell a failure, outermost circumstance first. -/
abbrev Failure := List String

/-- What a run leaves behind besides files. -/
structure Outcome where
  output : String := ""
  errors : String := ""
  failure : Option Failure := none

/-- The schema of a type of a document. -/
def resolveIn (document : Document) (typeName : String) (options : Options) :
    Except Failure Schema := do
  let graph ← (Graph.ofDocument document).mapError fun fault => [fault.message]
  let site ← (graph.site typeName).mapError fun fault => [fault.message]
  let resolver := Resolver.shipped Graph.checker options
  match (resolver.resolveNode Resolver.ample site).run (.fresh graph) with
  | .ok (schema, _) => return schema
  | .error stop => throw [stop.message]

/-- The text of a schema. -/
def Output.text (output : Output) (schema : Schema) : Except Failure String :=
  match output with
  | .schema => .ok schema.toJson.pretty
  | .expr exportName => do
    let literal ← schema.toData.encode.mapError fun cause => [cause.message]
    match exportName with
    | none => return literal.text
    | some name => return "export const " ++ name ++ " = " ++ literal.text ++ ";"

/-- The document in the text of an input, the numbers of which are read stepwise. -/
def documentIn (pointer : Option String) (path text : String) : Except Failure Document := do
  let value ← (Json.read .stepwise Json.depthLimit text).mapError fun fault =>
    ["failed to parse JSON source file (" ++ path ++ ")",
      fault.fault.message ++ fault.position.text]
  let value ←
    match pointer with
    | none => pure value
    | some pointer =>
      match value.pointer? pointer with
      | some value => pure value
      | none => throw ["JSON pointer " ++ pointer ++ " matched nothing in " ++ path]
  (Document.ofJson value).mapError fun fault =>
    ["invalid type graph (" ++ path ++ ")", fault.message]

/-- The text is a pattern for paths. -/
def isPattern (text : String) : Bool :=
  text.toList.any fun c => c == '*' || c == '?' || c == '[' || c == '\x7b'

variable {m : Type → Type} [Monad m]

/-- The paths of the matches; a directory that could not be looked into is a failure. -/
def pathsOf : List Glob.Match → Except Failure (List String)
  | [] => .ok []
  | .path path :: rest => do return path :: (← pathsOf rest)
  | .unreadable path fault :: _ =>
    .error
      ["attempting to read `" ++ path ++ "` resulted in an error: " ++ fault.message,
        fault.message]

/-- The paths that an input stands for. -/
def expand (files : FileSystem m) (input : String) : m (Except Failure (List String)) := do
  if !isPattern input then return .ok [input]
  else
    match ← Glob.paths files input with
    | .error fault => return .error [fault.message]
    | .ok [] => return .error ["glob pattern matched no files: " ++ input]
    | .ok found => return pathsOf found

/-- The paths that all inputs stand for, in order. -/
def expandAll (files : FileSystem m) : List String → m (Except Failure (List String))
  | [] => return .ok []
  | input :: rest => do
    match ← expand files input with
    | .error failure => return .error failure
    | .ok paths => return (← expandAll files rest).map (paths ++ ·)

/-- Read documents and merge them into `document`, later ones over earlier ones. -/
def load (files : FileSystem m) (pointer : Option String) (document : Document) :
    List String → m (Except Failure Document)
  | [] => return .ok document
  | path :: rest => do
    match ← files.read path with
    | .error fault =>
      return .error ["failed to read source file (" ++ path ++ ")", fault.message]
    | .ok text =>
      match documentIn pointer path text with
      | .error failure => return .error failure
      | .ok later => load files pointer (document.merge later) rest

/-- Write a text to a file in a directory that may be new, or else to the standard output. -/
def deliver (files : FileSystem m) (out : Option String) (text : String) : m Outcome := do
  match out with
  | none => return { output := text ++ "\n" }
  | some out =>
    let prepared ←
      match FilePath.parent? out with
      | some parent => files.createDirectories parent
      | none => pure (.ok ())
    match prepared with
    | .error fault => return { failure := some [fault.message] }
    | .ok () =>
      match ← files.write out text with
      | .error fault => return { failure := some ["failed to write " ++ out, fault.message] }
      | .ok () => return {}

/-- Carry out settings. -/
def run (files : FileSystem m) (settings : Settings) : m Outcome := do
  if settings.dryRun then return { errors := settings.dump ++ "\n" }
  else
    match ← expandAll files settings.inputs with
    | .error failure =>
      return { failure := some ("failed to resolve input file paths" :: failure) }
    | .ok paths =>
      match ← load files settings.pointer .empty paths with
      | .error failure => return { failure := some failure }
      | .ok document =>
        let text := do
          settings.output.text (← resolveIn document settings.typeName settings.options)
        match text with
        | .error failure => return { failure := some failure }
        | .ok text => deliver files settings.out text

end GraphSchema.CommandLine
