import GraphSchema.CommandLine.Run

/-!
# The program

The command line on the files of the system.
-/

namespace GraphSchema

/-- The number of a system error, which some accesses hand on with its sign turned. -/
def systemNumber (code : UInt32) : UInt32 := if code < 0x80000000 then code else 0 - code

/-- The fault that an error of the system stands for. -/
def FileFault.ofError : IO.Error → FileFault
  | .noFileOrDirectory .. => .notFound
  | .alreadyExists .. => .alreadyExists
  | .inappropriateType _ code details =>
    if systemNumber code = 20 then .notDirectory
    else if systemNumber code = 21 then .isDirectory
    else .other details
  | error => .other (toString error)

/-- Carry out an access to a path. -/
def access {α : Type} (path : String) (action : IO α) : IO (Except FileFault α) := do
  if path.toList.any (·.toNat == 0) then return .error .zeroInName
  else
    try
      return .ok (← action)
    catch error => return .error (.ofError error)

/-- The files of the system. -/
def systemFiles : FileSystem IO where
  read path := do
    match ← access path (IO.FS.readBinFile path) with
    | .error fault => return .error fault
    | .ok contents =>
      match String.fromUTF8? contents with
      | some text => return .ok text
      | none => return .error .invalidText
  write path text := access path (IO.FS.writeFile path text)
  createDirectory path := access path (IO.FS.createDir path)
  isDirectory path := (System.mkFilePath [path]).isDir
  isPresent path := (System.mkFilePath [path]).pathExists
  list path := access path do
    return (← (System.mkFilePath [path]).readDir).toList.map (·.fileName)

/-- The lines of a failure on the standard error. -/
def CommandLine.Failure.lines : CommandLine.Failure → List String
  | [] => []
  | [cause] => ["Error: " ++ cause]
  | first :: causes => ("Error: " ++ first) :: "" :: "Caused by:" :: causes.map ("    " ++ ·)

end GraphSchema

open GraphSchema CommandLine in
/-- Resolve a type of a type-graph document and write its schema. -/
def main (arguments : List String) : IO UInt32 := do
  match Settings.ofArguments arguments with
  | .error fault =>
    IO.eprintln ("usage: schema|expr --input FILE.. --type ID (" ++ fault.name ++ ")")
    return UInt32.ofNat fault.exitCode
  | .ok settings =>
    let outcome ← run systemFiles settings
    IO.eprint outcome.errors
    IO.print outcome.output
    match outcome.failure with
    | none => return 0
    | some failure =>
      for line in failure.lines do
        IO.eprintln line
      return 1
