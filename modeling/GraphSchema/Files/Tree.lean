import GraphSchema.Files.Basic

/-!
# File trees

A tree of directories and files held as a value.  `Tree.fileSystem` gives access to it as to the
files of a system: a path that begins with a slash is counted from the root of the tree, any
other from a directory called home; `.` and `..` are followed, and a path that leads through a
file or ends in a slash behind one does not name anything.
-/

namespace GraphSchema

/-- What a name in a directory stands for. -/
inductive Tree where
  | file (contents : ByteArray)
  | directory (entries : List (String × Tree))

namespace Tree

/-- The tree without files. -/
def empty : Tree := directory []

/-- The entry of a name. -/
def member? (name : String) : List (String × Tree) → Option Tree
  | [] => none
  | (known, tree) :: rest => if known = name then some tree else member? name rest

/-- Put a tree under a name. -/
def putEntry (name : String) (tree : Tree) : List (String × Tree) → List (String × Tree)
  | [] => [(name, tree)]
  | (known, old) :: rest =>
    if known = name then (known, tree) :: rest else (known, old) :: putEntry name tree rest

/-- The part of a tree under a sequence of names. -/
def get? : Tree → List String → Option Tree
  | tree, [] => some tree
  | file _, _ :: _ => none
  | directory entries, name :: rest => (member? name entries).bind fun tree => get? tree rest

/-- Put a tree under a sequence of names, adding directories where there are none. -/
def put (tree : Tree) (part : Tree) : List String → Tree
  | [] => part
  | name :: rest =>
    let entries :=
      match tree with
      | directory entries => entries
      | file _ => []
    directory (putEntry name (put ((member? name entries).getD empty) part rest) entries)

mutual

/-- Every file with its path. -/
def files (above : String) : Tree → List (String × ByteArray)
  | file contents => [(above, contents)]
  | directory entries => filesOf above entries

/-- Every file below the entries of a directory. -/
def filesOf (above : String) : List (String × Tree) → List (String × ByteArray)
  | [] => []
  | (name, tree) :: rest => files (FilePath.join above name) tree ++ filesOf above rest

end

/-- Follow the parts of a path.  All but the last have to be directories; the last may be
missing.  `above` are the names followed so far.  Above the root there is the root again. -/
def follow (tree : Tree) : List String → List String → Except FileFault (List String)
  | above, [] => .ok above
  | above, part :: rest =>
    match get? tree above with
    | none => .error .notFound
    | some (file _) => .error .notDirectory
    | some (directory _) =>
      if 255 < part.utf8ByteSize then .error .nameTooLong
      else if part = "." then follow tree above rest
      else if part = ".." then follow tree above.dropLast rest
      else follow tree (above ++ [part]) rest

/-- The longest path, in bytes. -/
def longestPath : Nat := 4095

/-- The names that the parts of a path lead to, which are given apart from it. -/
def locateParts (tree : Tree) (home : List String) (path : String) (parts : List String) :
    Except FileFault (List String) :=
  if path.toList.any (·.toNat == 0) then .error .zeroInName
  else if path = "" then .error .notFound
  else if longestPath < path.utf8ByteSize then .error .nameTooLong
  else follow tree (if FilePath.isAbsolute path then [] else home) parts

/-- The parts of a path between its slashes, dots among them. -/
def partsOf (path : String) : List String := (FilePath.pieces path).filter (· != "")

/-- The names that a path leads to.  A slash at the end asks for a directory. -/
def locate (tree : Tree) (home : List String) (path : String) :
    Except FileFault (List String) :=
  tree.locateParts home path
    (if FilePath.endsInSlash path then partsOf path ++ ["."] else partsOf path)

/-- What a path names. -/
def lookup (tree : Tree) (home : List String) (path : String) : Except FileFault Tree := do
  match get? tree (← tree.locate home path) with
  | some part => return part
  | none => throw .notFound

/-- The text of a file. -/
def read (tree : Tree) (home : List String) (path : String) : Except FileFault String := do
  match ← tree.lookup home path with
  | directory _ => throw .isDirectory
  | file contents =>
    match String.fromUTF8? contents with
    | some text => return text
    | none => throw .invalidText

/-- Write a text to a file, which may be new, in a directory, which may not.  A slash at the end
of the path asks for a directory, which no text is written to; its last part is not looked at
then. -/
def write (tree : Tree) (home : List String) (path text : String) : Except FileFault Tree := do
  if FilePath.endsInSlash path then
    let _ ← tree.locateParts home path ((partsOf path).dropLast ++ ["."])
    throw .isDirectory
  else
    let names ← tree.locate home path
    match get? tree names with
    | some (directory _) => throw .isDirectory
    | some (file _) | none => return tree.put (file text.toUTF8) names

/-- Add one directory. -/
def createDirectory (tree : Tree) (home : List String) (path : String) :
    Except FileFault Tree := do
  let names ← tree.locate home path
  match get? tree names with
  | some _ => throw .alreadyExists
  | none => return tree.put empty names

/-- Carry out a change of the tree. -/
def change (step : Tree → Except FileFault Tree) : StateM Tree (Except FileFault Unit) := do
  match step (← get) with
  | .ok tree =>
    set tree
    return .ok ()
  | .error fault => return .error fault

/-- Access to a tree as to the files of a system, from a home directory. -/
def fileSystem (home : List String) : FileSystem (StateM Tree) where
  read path := do return (← get).read home path
  write path text := change fun tree => tree.write home path text
  createDirectory path := change fun tree => tree.createDirectory home path
  isDirectory path := do
    match (← get).lookup home path with
    | .ok (directory _) => return true
    | _ => return false
  isPresent path := do
    match (← get).lookup home path with
    | .ok _ => return true
    | .error _ => return false
  list path := do
    match (← get).lookup home path with
    | .ok (directory entries) => return .ok (entries.map Prod.fst)
    | .ok (file _) => return .error .notDirectory
    | .error fault => return .error fault

end Tree

end GraphSchema
