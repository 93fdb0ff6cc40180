import IntentGraph.CommandLine.Layout
import IntentGraph.CommandLine.Program
import Std.Time.DateTime.Timestamp

/-!
# Entry point

Runs the program on the files of the system. A file is replaced in one step: the
text is written beside it and then moved into its place, so that a reader never
meets half of it.
-/

namespace IntentGraph.CommandLine

/-- The fault that an error of the system stands for. Some operations give its
code negated. -/
def FileFault.ofError : IO.Error → FileFault
  | .noFileOrDirectory .. => .missing
  | .alreadyExists .. => .alreadyExists
  | .resourceBusy .. => .busy
  | .inappropriateType path code details =>
    if code = 20 ∨ code = -20 then .notDirectory
    else if code = 21 ∨ code = -21 then .isDirectory
    else .other (toString (IO.Error.inappropriateType path code details))
  | error => .other (toString error)

/-- Runs an operation on files and keeps its fault. -/
def attempt {α : Type} (operation : IO α) : IO (Except FileFault α) := do
  try
    return .ok (← operation)
  catch error =>
    return .error (.ofError error)

/-- The parts of the directory that a path stands in. -/
def directoryParts (path : String) : List String :=
  let named :=
    (path.splitOn "/").reverse.dropWhile fun part => part = "" || part = "."
  (named.drop 1).reverse

/-- The path of some parts, each ended by a slash. -/
def directoryPath (parts : List String) : String :=
  String.join (parts.map (· ++ "/"))

/-- Makes the directories that some parts lead to, where there are none yet. A
file that is in the way is reported by the step below it. -/
def makeDirectories : (above : String) → List String → IO Unit
  | _, [] => return ()
  | above, part :: rest => do
    let path := above ++ part ++ "/"
    unless ← ((← IO.currentDir) / path).isDir do
      try
        IO.FS.createDir path
      catch error =>
        unless FileFault.ofError error = .alreadyExists
          ∧ rest ≠ [] do throw error
    makeDirectories path rest

/-- Reads a file that holds text. -/
def readText (path : String) : IO (Except FileFault String) := do
  match ← attempt (IO.FS.readBinFile path) with
  | .error fault => return .error fault
  | .ok bytes =>
    match String.fromUTF8? bytes with
    | some text => return .ok text
    | none => return .error (.other "stream did not contain valid UTF-8")

/-- Replaces a file in one step. -/
def replaceText (path text : String) : IO (Except FileFault Unit) :=
  attempt do
    let parts := directoryParts path
    makeDirectories "" parts
    let draft := directoryPath parts ++ ".tmp" ++ toString (← IO.monoNanosNow)
    IO.FS.writeFile draft text
    try
      IO.FS.rename draft path
    catch error =>
      IO.FS.removeFile draft
      throw error

/-- Access to the files of the system. -/
def systemFiles : FileAccess IO := ⟨readText, replaceText⟩

end IntentGraph.CommandLine

/-- Runs the program on the arguments it was started with. -/
def main (arguments : List String) : IO UInt32 := do
  let now ← Std.Time.Timestamp.now
  let around : IntentGraph.CommandLine.Surroundings :=
    { directory := toString (← IO.currentDir)
      time := IntentGraph.CommandLine.momentText
        now.toNanosecondsSinceUnixEpoch.val.toNat }
  let environment ← IO.getEnv "ACTIONGRAPH_CONFIG"
  let result ← IntentGraph.CommandLine.run IntentGraph.CommandLine.systemFiles
    around environment arguments
  IO.print result.output
  if let some error := result.error then IO.eprintln error.message
  return UInt32.ofNat result.exitCode
