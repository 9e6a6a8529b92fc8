import GraphSchema.Files.Basic
import GraphSchema.Glob.Pattern

/-!
# Paths that match a pattern

A pattern is compared with paths part by part.  A part without wildcards is looked up directly;
for one with wildcards the names of the directory are gone through in order; two stars match a
directory and, before going on, everything below it.  A pattern that ends in a slash matches
directories only.
-/

namespace GraphSchema.Glob

/-- The compiled parts of a pattern. -/
abbrev Parts := Array (List Token)

/-- A part that stands for directories at any depth. -/
def isDepth (tokens : List Token) : Bool := tokens.contains .anyDepth

/-- What a search comes upon: a path, or a directory that could not be looked into. -/
inductive Match where
  | path (path : String)
  | unreadable (path : String) (fault : FileFault)

/-- A search among files. -/
structure Search where
  parts : Parts
  /-- Only directories match. -/
  directoriesOnly : Bool

/-- The part at a place. -/
def Search.part (search : Search) (place : Nat) : List Token := search.parts[place]?.getD []

/-- The last of several parts for any depth that follow each other. -/
def Search.lastDepth (search : Search) : Nat → Nat → Nat
  | 0, place => place
  | steps + 1, place =>
    if isDepth (search.part (place + 1)) then search.lastDepth steps (place + 1) else place

/-- The part at this place is the last one. -/
def Search.isLast (search : Search) (place : Nat) : Bool := place + 1 == search.parts.size

/-- The directory from which a search starts is left out of the paths. -/
def within (directory name : String) : String :=
  if FilePath.isHere directory then name else FilePath.join directory name

/-- The last name of a path. -/
def lastName? (path : String) : Option String :=
  match (FilePath.components path).getLast? with
  | some ".." => none
  | some "." => none
  | name => name

variable {m : Type → Type} [Monad m]

/-- A path that has been found good, if it may be a result. -/
def accepted (files : FileSystem m) (search : Search) (path : String) : m (List Match) := do
  if search.directoriesOnly then
    return if ← files.isDirectory path then [.path path] else []
  else return [.path path]

/-- Put lists together in order. -/
def gather {α : Type} (step : α → m (List Match)) : List α → m (List Match)
  | [] => return []
  | item :: rest => do
    let found ← step item
    return found ++ (← gather step rest)

mutual

/-- What matches from the part at `place` on, among the names in `path`. -/
def enter (files : FileSystem m) (search : Search) :
    Nat → Nat → String → m (List Match)
  | 0, _, _ => return []
  | steps + 1, place, path => do
    let tokens := search.part place
    let isDirectory ← files.isDirectory path
    let go (next : String) : m (List Match) :=
      if search.isLast place then accepted files search next
      else enter files search steps (place + 1) next
    match literal? tokens with
    | some name =>
      let name := String.ofList name
      let next := within path name
      let good ←
        if name == "." || name == ".." then pure isDirectory else files.isPresent next
      if good then go next else return []
    | none =>
      if !isDirectory then return []
      else
        match ← files.list path with
        | .error fault => return [.unreadable path fault]
        | .ok names =>
          let special :=
            if tokens.head? == some (.char '.') then
              ["..", "."].filter fun name => accepts tokens name.toList
            else []
          let first ← gather (fun name => go (FilePath.join path name)) special
          let sorted := names.mergeSort (fun a b => decide (a ≤ b))
          let more ← gather (fun name => visit files search steps place (within path name)) sorted
          return first ++ more

/-- What matches from the part at `place` on, at `path` or below it. -/
def visit (files : FileSystem m) (search : Search) :
    Nat → Nat → String → m (List Match)
  | 0, _, _ => return []
  | steps + 1, place, path => do
    if isDepth (search.part place) then
      let last := search.lastDepth search.parts.size place
      let isDirectory ← files.isDirectory path
      let below ← if isDirectory then enter files search steps last path else pure []
      if search.isLast last then return if isDirectory then .path path :: below else []
      else
        let here ← compare files search steps (last + 1) path
        return here ++ below
    else compare files search steps place path

/-- Compare the last name of a path with the part at `place` and go on behind it. -/
def compare (files : FileSystem m) (search : Search) :
    Nat → Nat → String → m (List Match)
  | 0, _, _ => return []
  | steps + 1, place, path => do
    match lastName? path with
    | none => return []
    | some name =>
      if !accepts (search.part place) name.toList then return []
      else if search.isLast place then accepted files search path
      else enter files search steps (place + 1) path

end

/-- The nesting of directories that is looked into. -/
def depthBound : Nat := 4096

/-- The parts of a pattern; a slash at its end begins no further part. -/
def partsOf (pattern : String) : List String :=
  let pieces := FilePath.pieces pattern
  if pieces.getLast? == some "" then pieces.dropLast else pieces

/-- The paths that match a pattern, in order. -/
def paths (files : FileSystem m) (pattern : String) :
    m (Except PatternFault (List Match)) := do
  match tokens pattern.toList with
  | .error fault => return .error fault
  | .ok _ =>
    let absolute := FilePath.isAbsolute pattern
    let relative := if absolute then String.ofList (pattern.toList.drop 1) else pattern
    match (partsOf relative).mapM fun part => tokens part.toList with
    | .error fault => return .error fault
    | .ok parts =>
      let search : Search := ⟨parts.toArray, pattern.endsWith "/"⟩
      return .ok (← enter files search (3 * (depthBound + parts.length)) 0
        (if absolute then "/" else "."))

end GraphSchema.Glob
