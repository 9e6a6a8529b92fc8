import GraphSchema.Recognition.Inquiry
import GraphSchema.Text.Shown

/-!
# Settings of the command line

What the arguments of the command line come to: where the documents are, which type is to be
resolved, and how the schema is written.  `Settings.dump` shows all of it, each value on a line
of its own.
-/

namespace GraphSchema.CommandLine

/-- How the schema is written. -/
inductive Output where
  /-- As JSON. -/
  | schema
  /-- As a literal expression, perhaps under an exported name. -/
  | expr (exportName : Option String)
  deriving DecidableEq

/-- The settings of a run. -/
structure Settings where
  output : Output
  /-- The place of the document within each input. -/
  pointer : Option String
  /-- Paths of documents, or patterns for them. -/
  inputs : List String
  /-- The id of the type. -/
  typeName : String
  options : Options
  /-- The file to write; the standard output if there is none. -/
  out : Option String
  /-- Show the settings and do nothing else. -/
  dryRun : Bool
  deriving DecidableEq

/-- A value as it is shown: a word, or a bracketed list of parts, each with its own name or
none. -/
inductive Shown where
  | word (text : String)
  | group (opening closing : String) (parts : List (String × Shown))

mutual

/-- The lines of a value whose first line is already indented to `level`. -/
def Shown.textAt (level : Nat) : Shown → String
  | .word text => text
  | .group opening closing parts =>
    opening ++ "\n" ++ Shown.partsText (level + 1) parts ++
      String.ofList (List.replicate (4 * level) ' ') ++ closing

/-- The lines of the parts of a group. -/
def Shown.partsText (level : Nat) : List (String × Shown) → String
  | [] => ""
  | (label, part) :: rest =>
    String.ofList (List.replicate (4 * level) ' ') ++ label ++ Shown.textAt level part ++ ",\n" ++
      Shown.partsText level rest

end

namespace Shown

/-- A value between parentheses behind its name. -/
def wrapped (name : String) (value : Shown) : Shown := group (name ++ "(") ")" [("", value)]

/-- Named values between braces behind a name. -/
def record (name : String) (fields : List (String × Shown)) : Shown :=
  group (name ++ " \x7b") "\x7d" (fields.map fun field => (field.1 ++ ": ", field.2))

/-- Values between brackets. -/
def list (values : List Shown) : Shown :=
  if values.isEmpty then word "[]" else group "[" "]" (values.map fun value => ("", value))

/-- A value that may be missing. -/
def optional : Option Shown → Shown
  | some value => wrapped "Some" value
  | none => word "None"

/-- A quoted text. -/
def quoted (text : String) : Shown := word (Text.Shown.quote text)

end Shown

namespace Settings

/-- The settings that say what is resolved. -/
def shownInput (settings : Settings) : Shown :=
  let generics :=
    match settings.options.generics with
    | .target => "Target"
    | .instantiated => "Instantiated"
  .record "InputSettings"
    [("json_pointer", .optional (settings.pointer.map .quoted)),
     ("input", .list (settings.inputs.map .quoted)),
     ("type_ref", .quoted settings.typeName),
     ("generics", .word generics),
     ("max_depth", .word (toString settings.options.maxDepth))]

/-- All settings. -/
def shown (settings : Settings) : Shown :=
  let input := ("input_settings", settings.shownInput)
  let last :=
    [("out", Shown.optional (settings.out.map .quoted)),
     ("no_op", Shown.word (if settings.dryRun then "true" else "false"))]
  let command :=
    match settings.output with
    | .schema => Shown.wrapped "Schema" (.record "SchemaOut" (input :: last))
    | .expr exportName =>
      let exported := ("export", Shown.optional (exportName.map .quoted))
      Shown.wrapped "Expr" (.record "ExprOut" (input :: exported :: last))
  .record "CommandLineInterface" [("cmd", command)]

/-- The settings, each value on a line of its own. -/
def dump (settings : Settings) : String := Shown.textAt 0 settings.shown

end Settings

end GraphSchema.CommandLine
