import IntentGraph.Text

/-!
# Files

What the commands ask of a file system (`FileAccess`), and a file system that
is a value (`FileStore`).
-/

namespace IntentGraph.CommandLine

/-!
## Access to files

What the commands ask of a file system, whichever it is: the text of a file, and
the replacement of a file by a text.
-/

/-- Why a file cannot be read or written. -/
inductive FileFault where
  | missing
  | notDirectory
  | isDirectory
  | alreadyExists
  | busy
  | nameTooLong
  | other (message : String)
  deriving DecidableEq

namespace FileFault

/-- The wording of a fault, as the system gives it. -/
def message : FileFault → String
  | .missing => "No such file or directory (os error 2)"
  | .notDirectory => "Not a directory (os error 20)"
  | .isDirectory => "Is a directory (os error 21)"
  | .alreadyExists => "File exists (os error 17)"
  | .busy => "Device or resource busy (os error 16)"
  | .nameTooLong => "File name too long (os error 36)"
  | .other message => message

/-- Whether the fault says that nothing stands at the path. -/
def isAbsence : FileFault → Bool
  | .missing | .notDirectory | .nameTooLong => true
  | .isDirectory | .alreadyExists | .busy | .other _ => false

end FileFault

/-- The operations on files. A write makes the directories above the file that
do not exist yet. -/
structure FileAccess (m : Type → Type) where
  read : String → m (Except FileFault String)
  write : String → String → m (Except FileFault Unit)

namespace FileAccess

variable {m : Type → Type} [Monad m]

/-- Whether anything stands at a path. -/
def isTaken (files : FileAccess m) (path : String) : m Bool := do
  match ← files.read path with
  | .ok _ => return true
  | .error fault => return !fault.isAbsence

/-- Whether a file stands at a path, readable or not. -/
def isFile (files : FileAccess m) (path : String) : m Bool := do
  match ← files.read path with
  | .ok _ | .error (.other _) => return true
  | .error _ => return false

/-- The first of some paths at which a file stands. -/
def firstFile (files : FileAccess m) : List String → m (Option String)
  | [] => return none
  | path :: rest => do
    if ← files.isFile path then return some path else files.firstFile rest

end FileAccess

/-!
## A store of files

The files below one directory, held as a value. Directories are those that files
stand in; outside of them only the directories above are known. Paths are
resolved part by part: each step needs a directory to start from.
-/

/-- The files below a directory, by the parts of their paths. A part `..` in
front stands for one step up from the directory. -/
structure FileStore where
  directory : String
  files : List (List String × String)

/-- What stands at a place. -/
inductive Entry where
  | file (text : String)
  | directory
  | nothing

namespace FileStore

/-- The store of files that are given by their paths. -/
def ofList (directory : String) (files : List (String × String)) : FileStore :=
  ⟨directory, files.map fun (path, text) => (path.splitOn "/", text)⟩

/-- What stands at a place. -/
def entry (s : FileStore) (place : List String) : Entry :=
  match s.files.lookup place with
  | some text => .file text
  | none =>
    if place.all (· = "..") || s.files.any fun (path, _) =>
      place.isPrefixOf path then .directory
    else .nothing

/-- The parts of a path below the directory of the store; a path to elsewhere
has none. -/
def parts? (s : FileStore) (path : String) : Option (List String) :=
  match (s.directory.toList ++ ['/']).isPrefixOf? path.toList with
  | some rest => some ((String.ofList rest).splitOn "/")
  | none =>
    if path.toList.head? = some '/' then none else some (path.splitOn "/")

/-- The most bytes that the name of a file has. -/
def longestName : Nat := 255

/-- The most bytes that a path has. -/
def longestPath : Nat := 4095

/-- The place that a step leads to, from a directory. -/
def step (place : List String) (part : String) :
    Except FileFault (List String) :=
  if part = "" ∨ part = "." then .ok place
  else if part = ".." then
    .ok (if place.all (· = "..") then place ++ [part] else place.dropLast)
  else if longestName < part.utf8ByteSize then .error .nameTooLong
  else .ok (place ++ [part])

/-- The place that some parts lead to. -/
def walk (s : FileStore) : (place : List String) → List String →
    Except FileFault (List String)
  | place, [] => .ok place
  | place, part :: rest =>
    match s.entry place with
    | .directory => do s.walk (← step place part) rest
    | .file _ => .error .notDirectory
    | .nothing => .error .missing

/-- The text of the file at a path. -/
def read (s : FileStore) (path : String) : Except FileFault String := do
  if longestPath < path.utf8ByteSize then throw .nameTooLong
  match s.parts? path with
  | none => .error .missing
  | some parts =>
    match s.entry (← s.walk [] parts) with
    | .file text => .ok text
    | .directory => .error .isDirectory
    | .nothing => .error .missing

/-- The place of the directory that some parts lead to, made where there is none
yet. -/
def makeDirectories (s : FileStore) :
    (place : List String) → List String → Except FileFault (List String)
  | place, [] => .ok place
  | place, part :: rest => do
    let place ← step place part
    match s.entry place, rest with
    | .file _, [] => .error .alreadyExists
    | .file _, _ => .error .notDirectory
    | _, _ => s.makeDirectories place rest

/-- Whether a part of a path stays where it is. -/
def isIdle (part : String) : Bool := part = "" || part = "."

/-- The fault of replacing a directory that a path leads to by dots: it is in
use, if it is one. The parts are those of the path up to the dots that stay
where they are, and `place` is where they lead. -/
def dotFault (s : FileStore) (parts : List String) (place : List String) :
    FileFault :=
  if parts.getLast?.getD ".." = ".." then .busy
  else match s.entry place with
    | .file _ => .notDirectory
    | .directory => .busy
    | .nothing => .missing

/-- The store with the file at a path replaced. The directories above the path
are made first. A path that ends in dots leads to a directory that is in use,
and one that ends in a slash asks for a directory where a file is to stand. -/
def write (s : FileStore) (path text : String) :
    Except FileFault FileStore := do
  if longestPath < path.utf8ByteSize then throw .nameTooLong
  match s.parts? path with
  -- nothing is known of a path to elsewhere
  | none => if (path.splitOn "/").all isIdle then throw .busy else return s
  | some parts =>
    let named := (parts.reverse.dropWhile isIdle).reverse
    let above ← s.makeDirectories []
      (named.dropLast.filter fun part => !isIdle part)
    let place ← step above (named.getLast?.getD ".")
    let last := (parts.reverse.dropWhile (· = "")).headD "."
    if last = "." ∨ last = ".." then throw (s.dotFault named place)
    if parts.getLast? = some "" then throw .notDirectory
    match s.entry place with
    | .directory => throw .isDirectory
    | _ => return { s with
        files := (place, text) :: s.files.filter fun (path, _) => path ≠ place }

/-- Access to the files of a store. -/
def access : FileAccess (StateM FileStore) where
  read path := do return (← get).read path
  write path text := do
    match (← get).write path text with
    | .ok s =>
      set s
      return .ok ()
    | .error fault => return .error fault

end FileStore

end IntentGraph.CommandLine
