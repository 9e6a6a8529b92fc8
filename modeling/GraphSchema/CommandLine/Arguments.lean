import GraphSchema.CommandLine.Settings

/-!
# Reading the command line

`Settings.ofArguments` reads the arguments from left to right.  An option stands as `--name value`,
`--name=value`, `-n value`, `-nvalue` or `-n=value`; the inputs take every following argument up
to the next option.  A value that stands in an argument of its own is examined when the next
known option comes or the arguments end, one that is attached to its option at once; so of two
faults the one that is examined first is reported.
-/

namespace GraphSchema.CommandLine

/-- Why there is nothing to run: help was asked for, or the arguments are wrong. -/
inductive UsageFault where
  | displayHelp
  | displayVersion
  /-- No argument at all. -/
  | missingSubcommand
  | invalidSubcommand
  | missingRequired
  | invalidValue
  | valueValidation
  | unknownArgument
  | argumentConflict
  | tooManyValues
  deriving DecidableEq

namespace UsageFault

/-- The name of a fault. -/
def name : UsageFault → String
  | displayHelp => "DisplayHelp"
  | displayVersion => "DisplayVersion"
  | missingSubcommand => "DisplayHelpOnMissingArgumentOrSubcommand"
  | invalidSubcommand => "InvalidSubcommand"
  | missingRequired => "MissingRequiredArgument"
  | invalidValue => "InvalidValue"
  | valueValidation => "ValueValidation"
  | unknownArgument => "UnknownArgument"
  | argumentConflict => "ArgumentConflict"
  | tooManyValues => "TooManyValues"

/-- The exit code of the program. -/
def exitCode : UsageFault → Nat
  | displayHelp | displayVersion => 0
  | _ => 2

end UsageFault

/-- An option. -/
inductive Switch where
  | pointer
  | input
  | typeName
  | generics
  | maxDepth
  | exportName
  | out
  | dryRun
  | help
  deriving DecidableEq

/-- The two commands. -/
inductive Command where
  | schema
  | expr
  deriving DecidableEq

namespace Switch

/-- The option takes a value. -/
def takesValue : Switch → Bool
  | dryRun | help => false
  | _ => true

/-- The option with a long name. -/
def ofLong? (command : Command) : String → Option Switch
  | "json-pointer" => some pointer
  | "input" => some input
  | "type" => some typeName
  | "generics" => some generics
  | "max-depth" => some maxDepth
  | "export" => if command = .expr then some exportName else none
  | "out" => some out
  | "no-op" => some dryRun
  | "help" => some help
  | _ => none

/-- The option with a letter. -/
def ofShort? : Char → Option Switch
  | 'i' => some input
  | 't' => some typeName
  | 'o' => some out
  | 'h' => some help
  | _ => none

end Switch

/-! ## The form of an argument -/

/-- The form of an argument. -/
inductive Form where
  /-- Two hyphens: no option follows. -/
  | separator
  /-- A long name, with the value behind the equals sign if there is one. -/
  | long (name : String) (value : Option String)
  /-- A letter and what follows it. -/
  | short (letter : Char) (rest : List Char)
  /-- No option. -/
  | plain
  deriving DecidableEq

/-- The form of an argument; a lone hyphen is no option. -/
def Form.ofText (text : String) : Form :=
  match text.toList with
  | ['-', '-'] => .separator
  | '-' :: '-' :: rest =>
    let name := String.ofList (rest.takeWhile (· != '='))
    match rest.dropWhile (· != '=') with
    | [] => .long name none
    | _ :: value => .long name (some (String.ofList value))
  | '-' :: letter :: rest => .short letter rest
  | _ => .plain

/-! ## Values -/

/-- A number of at most 64 bits, perhaps behind a plus sign. -/
def number? (text : String) : Option Nat :=
  let digits :=
    match text.toList with
    | '+' :: rest => rest
    | digits => digits
  if digits.isEmpty || !digits.all Char.isDigit then none
  else
    let value := digits.foldl (fun value digit => 10 * value + (digit.toNat - 48)) 0
    if value < Nat.pow 2 64 then some value else none

/-- The values that have been collected. -/
structure Collected where
  pointer : Option String := none
  inputs : List String := []
  typeName : Option String := none
  generics : Option GenericMode := none
  maxDepth : Option Nat := none
  exportName : Option String := none
  out : Option String := none
  dryRun : Bool := false

/-- A value for an option that may be given once. -/
def once {α : Type} (known : Option α) (value : Except UsageFault α) :
    Except UsageFault (Option α) :=
  if known.isSome then .error .argumentConflict else value.map some

namespace Collected

/-- Take the value of an option that may be given once. -/
def takeOne (collected : Collected) (switch : Switch) (value : String) :
    Except UsageFault Collected :=
  match switch with
  | .pointer => do return { collected with pointer := ← once collected.pointer (.ok value) }
  | .typeName => do return { collected with typeName := ← once collected.typeName (.ok value) }
  | .exportName => do
    return { collected with exportName := ← once collected.exportName (.ok value) }
  | .generics => do
    let mode : Except UsageFault GenericMode :=
      match value with
      | "target" => .ok .target
      | "instantiated" => .ok .instantiated
      | _ => .error .invalidValue
    return { collected with generics := ← once collected.generics mode }
  | .maxDepth => do
    let depth : Except UsageFault Nat :=
      match number? value with
      | some depth => .ok depth
      | none => .error .valueValidation
    return { collected with maxDepth := ← once collected.maxDepth depth }
  | .out => do
    let path : Except UsageFault String := if value = "" then .error .invalidValue else .ok value
    return { collected with out := ← once collected.out path }
  | .input => .ok { collected with inputs := collected.inputs ++ [value] }
  | .dryRun | .help => .error .tooManyValues

/-- Take the values of an option. -/
def take (collected : Collected) (switch : Switch) :
    List String → Except UsageFault Collected
  | [] => .error .invalidValue
  | value :: rest =>
    if switch = .input then
      .ok { collected with inputs := collected.inputs ++ value :: rest }
    else collected.takeOne switch value

/-- Take an option without a value. -/
def flag (collected : Collected) (switch : Switch) : Except UsageFault Collected :=
  if switch = .help then .error .displayHelp
  else if collected.dryRun then .error .argumentConflict
  else .ok { collected with dryRun := true }

end Collected

/-- An option whose values stand in arguments of their own. -/
structure Pending where
  switch : Switch
  values : List String

/-- The option takes another value. -/
def Pending.isOpen (pending : Pending) : Bool :=
  pending.switch == .input || pending.values.isEmpty

/-- Take the values of the option that was waiting for them. -/
def Collected.settle (collected : Collected) : Option Pending → Except UsageFault Collected
  | none => .ok collected
  | some pending => collected.take pending.switch pending.values

/-- Read the arguments behind the command. -/
def collect (command : Command) :
    Collected → Option Pending → List String → Except UsageFault Collected
  | collected, pending, [] => collected.settle pending
  | collected, pending, argument :: rest =>
    /- An option, with the value that is attached to it. -/
    let option (switch : Switch) (attached : Option String) : Except UsageFault Collected :=
      if switch.takesValue then
        match attached with
        | some value => do
          let collected ← (← collected.settle pending).take switch [value]
          collect command collected none rest
        | none => do
          let collected ← collected.settle pending
          collect command collected (some ⟨switch, []⟩) rest
      else
        match attached with
        | some _ => .error .tooManyValues
        | none => do
          let collected ← (← collected.settle pending).flag switch
          collect command collected none rest
    match Form.ofText argument with
    | .separator => if rest.isEmpty then collected.settle pending else .error .unknownArgument
    | .long name attached =>
      match Switch.ofLong? command name with
      | some switch => option switch attached
      | none => .error .unknownArgument
    | .short letter following =>
      match Switch.ofShort? letter with
      | none => .error .unknownArgument
      | some switch =>
        if switch.takesValue then
          match following with
          | [] => option switch none
          | '=' :: value => option switch (some (String.ofList value))
          | value => option switch (some (String.ofList value))
        else option switch none
    | .plain =>
      match pending with
      | none => .error .unknownArgument
      | some waiting =>
        if waiting.isOpen then
          collect command collected (some ⟨waiting.switch, waiting.values ++ [argument]⟩) rest
        else .error .unknownArgument

/-- The settings of a command; the inputs and the type have to be given. -/
def Collected.settings (collected : Collected) (command : Command) :
    Except UsageFault Settings :=
  match collected.inputs, collected.typeName with
  | inputs@(_ :: _), some typeName =>
    .ok
      { output :=
          match command with
          | .schema => .schema
          | .expr => .expr collected.exportName
        pointer := collected.pointer
        inputs
        typeName
        options :=
          { generics := collected.generics.getD .target
            maxDepth := collected.maxDepth.getD 64 }
        out := collected.out
        dryRun := collected.dryRun }
  | _, _ => .error .missingRequired

/-- The command of a name. -/
def Command.ofName? : String → Option Command
  | "schema" => some .schema
  | "expr" => some .expr
  | _ => none

/-- A word that may stand where a command is expected. -/
def isCommandWord (word : String) : Bool := (Command.ofName? word).isSome || word == "help"

/-- What help is asked for. -/
def helpOn : List String → UsageFault
  | [] => .displayHelp
  | [word] => if isCommandWord word then .displayHelp else .invalidSubcommand
  | _ => .invalidSubcommand

/-- The settings that the arguments of the program come to. -/
def Settings.ofArguments : List String → Except UsageFault Settings
  | [] => .error .missingSubcommand
  | word :: rest =>
    match Command.ofName? word with
    | some command => do (← collect command {} none rest).settings command
    | none =>
      if word = "help" then .error (helpOn rest)
      else
        match Form.ofText word with
        | .separator =>
          match rest with
          | [] => .error .missingSubcommand
          | word :: _ =>
            .error (if isCommandWord word then .unknownArgument else .invalidSubcommand)
        | .long name attached =>
          if name = "help" ∨ name = "version" then
            if attached.isSome then .error .tooManyValues
            else .error (if name = "help" then .displayHelp else .displayVersion)
          else .error .unknownArgument
        | .short letter _ =>
          .error
            (if letter = 'h' then .displayHelp
             else if letter = 'V' then .displayVersion
             else .unknownArgument)
        | .plain => .error .invalidSubcommand

end GraphSchema.CommandLine
