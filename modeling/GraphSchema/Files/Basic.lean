/-!
# Files

`FileSystem` is what the command line needs of the files around it, for any monad in which they
can be reached.  `FileFault` lists the ways in which an access fails.

A path is a text with slashes between its parts.  `FilePath.parent?` is the part of it that
names the directory in which it lies.
-/

namespace GraphSchema

/-- A way in which an access to a file fails. -/
inductive FileFault where
  | notFound
  | alreadyExists
  | notDirectory
  | isDirectory
  | nameTooLong
  /-- The contents are no text. -/
  | invalidText
  /-- A name contains the character zero. -/
  | zeroInName
  /-- Another failure, in the words of the system. -/
  | other (text : String)
  deriving DecidableEq

/-- The wording of a fault. -/
def FileFault.message : FileFault → String
  | notFound => "No such file or directory (os error 2)"
  | alreadyExists => "File exists (os error 17)"
  | notDirectory => "Not a directory (os error 20)"
  | isDirectory => "Is a directory (os error 21)"
  | nameTooLong => "File name too long (os error 36)"
  | invalidText => "stream did not contain valid UTF-8"
  | zeroInName => "file name contained an unexpected NUL byte"
  | other text => text

/-- Access to files in a monad. -/
structure FileSystem (m : Type → Type) where
  /-- The text of a file. -/
  read : String → m (Except FileFault String)
  /-- Write a text to a file, in place of what it held. -/
  write : String → String → m (Except FileFault Unit)
  /-- Add one directory. -/
  createDirectory : String → m (Except FileFault Unit)
  isDirectory : String → m Bool
  /-- The path names a file or a directory. -/
  isPresent : String → m Bool
  /-- The names in a directory. -/
  list : String → m (Except FileFault (List String))

namespace FilePath

/-- The parts of a path between its slashes. -/
def pieces (path : String) : List String :=
  let rec split : List Char → List Char → List String
    | piece, [] => [String.ofList piece.reverse]
    | piece, c :: rest =>
      if c = '/' then String.ofList piece.reverse :: split [] rest else split (c :: piece) rest
  split [] path.toList

/-- The path is counted from the root of the file system. -/
def isAbsolute (path : String) : Bool := path.toList.head? == some '/'

/-- The path ends in a slash. -/
def endsInSlash (path : String) : Bool := path.toList.getLast? == some '/'

/-- The parts of a path that name something: empty parts do not, and a dot does so only at the
beginning of a path. -/
def components (path : String) : List String :=
  let named := (pieces path).filter (· != "")
  match isAbsolute path, named with
  | false, first :: rest => first :: rest.filter (· != ".")
  | _, named => named.filter (· != ".")

/-- The pieces of a path, last one first, from the first of these on that names something. -/
def dropUnnamed : List String → List String
  | [] => []
  | [first] => if first = "" then [] else [first]
  | piece :: above => if piece = "" ∨ piece = "." then dropUnnamed above else piece :: above

/-- The directory in which a path lies, as it is spelled in the path: empty for that from which
paths are counted.  The root and the empty path lie in none. -/
def parent? (path : String) : Option String :=
  match dropUnnamed (pieces path).reverse with
  | [] => none
  | _ :: above =>
    let above := String.intercalate "/" (dropUnnamed above).reverse
    some (if above = "" ∧ isAbsolute path then "/" else above)

/-- The path stands for the directory from which paths are counted, as a dot does. -/
def isHere (path : String) : Bool := components path == ["."]

/-- A name within a directory. -/
def join (directory name : String) : String :=
  if endsInSlash directory || directory == "" then directory ++ name
  else directory ++ "/" ++ name

end FilePath

namespace FileSystem

variable {m : Type → Type} [Monad m]

/-- Add the directories that a list of paths names, each in the one before it. -/
def createEach (files : FileSystem m) : List String → m (Except FileFault Unit)
  | [] => return .ok ()
  | path :: rest => do
    match ← files.createDirectory path with
    | .ok () => createEach files rest
    | .error fault =>
      if fault = .alreadyExists ∧ (← files.isDirectory path) then createEach files rest
      else return .error fault

/-- Add a directory and those in which it lies, as far as they are missing; `pending` are the
missing ones below `path`, outermost first. -/
def createMissing (files : FileSystem m) :
    Nat → String → List String → m (Except FileFault Unit)
  | 0, _, pending => createEach files pending
  | steps + 1, path, pending => do
    match FilePath.parent? path with
    | none => createEach files pending
    | some parent =>
      match ← files.createDirectory path with
      | .ok () => createEach files pending
      | .error .notFound => createMissing files steps parent (path :: pending)
      | .error fault =>
        if fault = .alreadyExists ∧ (← files.isDirectory path) then createEach files pending
        else return .error fault

/-- Add a directory and those in which it lies, as far as they are missing. -/
def createDirectories (files : FileSystem m) (path : String) : m (Except FileFault Unit) :=
  createMissing files (FilePath.components path).length path []

end FileSystem

end GraphSchema
