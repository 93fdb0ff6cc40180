import IntentGraph.Text

/-!
# File formats

Whether a file is JSON or YAML is told by the extension of its name. The name of
a path is its last part that is not empty and not a single dot. Nothing but the
part after the last dot is an extension, and a name whose only dot stands in
front has none.
-/

namespace IntentGraph

/-- The format of a file. -/
inductive FileFormat where
  | json
  | yaml
  deriving DecidableEq

namespace FileFormat

/-- The name of a format. -/
def name : FileFormat → String
  | .json => "json"
  | .yaml => "yaml"

/-- The parts of a path between slashes, those without meaning left out. A dot
in front of all others stays. -/
def pathParts (path : String) : List String :=
  match path.splitOn "/" with
  | [] => []
  | first :: rest =>
    let meaningful := rest.filter fun part => part ≠ "" && part ≠ "."
    if first = "" then meaningful else first :: meaningful

/-- The name of the file or directory that a path leads to. -/
def fileName? (path : String) : Option String :=
  (pathParts path).getLast?.filter fun part => part ≠ "." && part ≠ ".."

/-- The extension of the name of a path. -/
def extension? (path : String) : Option String := do
  let name ← fileName? path
  let (stem, extension) := Text.splitLast '.' name.toList
  if stem.getD [] = [] then none else some (String.ofList extension)

/-- The format that the extension of a path tells. -/
def ofPath (path : String) : FileFormat :=
  match extension? path with
  | some extension =>
    if extension = "yaml" ∨ extension = "yml" then .yaml else .json
  | none => .json

end FileFormat

end IntentGraph
