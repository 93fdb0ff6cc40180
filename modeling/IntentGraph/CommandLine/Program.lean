import IntentGraph.CommandLine.FileStore
import IntentGraph.CommandLine.Invocation
import IntentGraph.CommandLine.Layout
import IntentGraph.Compilation
import IntentGraph.TextForm

/-!
# The program

What every command prints and writes, over any access to files. A command may
print before it fails: a report is shown even when it ends in a refusal.

Settings come from the file that is named, from the nearest `actiongraph.yaml`
above the working directory, or else are the defaults; they are loaded before
the document.
-/

namespace IntentGraph.CommandLine

/-! ## Failures -/

/-- Why a text cannot be loaded from a file. -/
inductive LoadError where
  | file (fault : FileFault)
  | content (error : DecodeError)
  deriving DecidableEq

/-- The wording of a failure to load. -/
def LoadError.message : LoadError → String
  | .file fault => fault.message
  | .content error => error.message

/-- Why a command fails. -/
inductive CommandError where
  | noConfig (path : String)
  | badConfig (path : String) (error : LoadError)
  | unreadable (path : String) (error : LoadError)
  | unwritable (path : String) (fault : FileFault)
  | rejected (rejection : Rejection)
  | unsoundConfig
  | targetExists (path : String)
  deriving DecidableEq

/-- The wording of a failure. -/
def CommandError.message : CommandError → String
  | .noConfig path =>
    "failed to load config " ++ path ++ ": config file not found: " ++ path
  | .badConfig path error =>
    "failed to load config " ++ path ++ ": " ++ error.message
  | .unreadable path error => "failed to read " ++ path ++ ": " ++ error.message
  | .unwritable path fault =>
    "failed to write " ++ path ++ ": " ++ fault.message
  | .rejected rejection => "document rejected: " ++ rejection.reason
  | .unsoundConfig => "config validation found errors"
  | .targetExists path => path ++ " already exists (use --force to overwrite)"

/-! ## Output -/

/-- What a command prints, and why it fails after that, if it does. -/
structure Transcript where
  output : String
  failure : Option CommandError
  deriving DecidableEq

namespace Transcript

/-- Lines of output, each ended. -/
def ofLines (lines : List String) : Transcript :=
  ⟨String.join (lines.map (· ++ "\n")), none⟩

/-- A value as output. -/
def ofJson (value : Json) : Transcript := ofLines [value.pretty]

/-- The output with a failure after it. -/
def failing (t : Transcript) (failure : Option CommandError) : Transcript :=
  { t with failure }

end Transcript

/-- What may be missing in a table. -/
def orDash (cell : Option String) : String := cell.getD "-"

/-! ## Surroundings -/

/-- Where and when the program runs. -/
structure Surroundings where
  directory : String
  time : String

/-- The name of the file that holds settings. -/
def configFile : String := "actiongraph.yaml"

/-- The paths of settings above a directory, the nearest first. -/
def configCandidates (directory : String) : List String :=
  let parts := directory.splitOn "/"
  ((List.range parts.length).map fun n =>
    "/".intercalate (parts.take (parts.length - n) ++ [configFile])).eraseDups

/-! ## Commands -/

section Commands

variable {m : Type → Type} [Monad m]

/-- A part of a command that may fail. -/
abbrev Step (m : Type → Type) (α : Type) := ExceptT CommandError m α

/-- The path of the settings, if there are any. -/
def resolveConfig (files : FileAccess m) (around : Surroundings)
    (named : Option String) :
    m (Option String) :=
  match named with
  | some path => return some path
  | none => files.firstFile (configCandidates around.directory)

/-- Loads the settings. -/
def loadConfig (files : FileAccess m) (around : Surroundings)
    (named : Option String) :
    Step m Configuration := do
  match ← (resolveConfig files around named : m (Option String)) with
  | none => return .default
  | some path =>
    match ← files.read path with
    | .error fault =>
      throw (if fault.isAbsence then .noConfig path
        else .badConfig path (.file fault))
    | .ok text =>
      match Configuration.ofText text with
      | .ok config => return config
      | .error error => throw (.badConfig path (.content error))

/-- Loads a document. -/
def loadDocument (files : FileAccess m) (path : String) :
    Step m IntentDocument := do
  match ← files.read path with
  | .error fault => throw (.unreadable path (.file fault))
  | .ok text =>
    match IntentDocument.ofText (.ofPath path) text with
    | .ok document => return document
    | .error error => throw (.unreadable path (.content error))

/-- Replaces a file by a text. -/
def save (files : FileAccess m) (path text : String) : Step m Unit := do
  match ← files.write path text with
  | .ok () => return ()
  | .error fault => throw (.unwritable path fault)

/-- The report of a compilation whose document was written to a file. -/
def compilationReport (file target : String) (c : Compilation) : List String :=
  let graph := c.document.executionGraph.getD .empty
  let repairs : Table := ⟨["STAGE", "ACTION", "RULE", "DETAIL"],
    c.repairLog.map fun r =>
      [r.stage.name, orDash r.actionId, r.rule.name, r.detail]⟩
  ["Compiled " ++ file ++ " -> " ++ target ++ " ("
    ++ toString graph.nodes.length ++ " nodes, "
    ++ toString graph.edges.length ++ " edges)"]
  ++ (if c.repairLog.isEmpty then [] else ["", "Repairs:"] ++ repairs.lines)
  ++ (if c.advisories.isEmpty then [] else
    ["", "Advisories:"] ++ c.advisories.map fun f => "[" ++ f.rule ++ "] "
      ++ f.violation.message)
  ++ c.diagnostics.map fun d => "[" ++ d.code ++ "] " ++ d.message

/-- Compiles a document. -/
def runCompile (files : FileAccess m) (around : Surroundings)
    (options : GlobalOptions) (file : String) (target : Option String)
    (skipRepair : Bool) : Step m Transcript := do
  let loaded ← loadConfig files around options.config
  let config : Configuration :=
    if skipRepair then
      { loaded with repair := { loaded.repair with enabled := false } }
    else loaded
  let document ← loadDocument files file
  match document.compile config with
  | .error rejection =>
    let shown : Transcript := if options.json then .ofJson rejection.encode
      else ⟨"", none⟩
    return shown.failing (some (.rejected rejection))
  | .ok c =>
    if let some path := target then
      save files path (c.document.toText (.ofPath path))
    if options.json then return .ofJson (c.encodeAt around.time)
    match target with
    | none => return .ofLines [c.document.toText .json]
    | some path => return .ofLines (compilationReport file path c)

/-- The report of a validation. -/
def validationReport (file : String) (findings : Findings) : List String :=
  if findings.isEmpty then [file ++ " is valid. No findings."]
  else
    let table : Table :=
      ⟨["LEVEL", "RULE", "ACTION", "MESSAGE"], findings.map fun f =>
        [f.severity.name, f.rule, orDash f.violation.actionId?,
          f.violation.message]⟩
    table.lines

/-- Validates a document. -/
def runValidate (files : FileAccess m) (around : Surroundings)
    (options : GlobalOptions) (file : String) (full : Bool) :
    Step m Transcript := do
  let config ← loadConfig files around options.config
  let document ← loadDocument files file
  let (normal, _) := document.normalize config.normalize
  let findings := normal.validate config (if full then .full else .structural)
  let rejection := findings.rejection?
  let shown : Transcript :=
    if options.json then .ofJson (.object [
      ("findings", (Json.ofList Finding.encode findings).sortKeys),
      ("rejection", (Json.ofOption Rejection.encode rejection).sortKeys),
      ("valid", .bool rejection.isNone)])
    else .ofLines (validationReport file findings)
  return shown.failing (rejection.map .rejected)

/-- Reports which actions can run. -/
def runReach (files : FileAccess m) (around : Surroundings)
    (options : GlobalOptions) (file : String) : Step m Transcript := do
  let config ← loadConfig files around options.config
  let document ← loadDocument files file
  let (normal, _) := document.normalize config.normalize
  let reach := normal.reachability
  let actions := normal.mutation.actions
  let table : Table := ⟨["ACTION", "KIND", "STATUS"], actions.map fun a =>
    [a.id, a.kind.name, if reach.isReachable a.id then "reachable"
      else "orphan"]⟩
  if options.json then return .ofJson reach.encode
  if actions.isEmpty then return .ofLines ["No actions in the mutation."]
  return .ofLines (table.lines ++ if reach.isClosed then [] else
    ["", toString reach.orphans.length
      ++ " orphaned action(s); \x60compile\x60 will try to bind them."])

/-- The report of a dry run. -/
def runReportLines (r : RunReport) : List String :=
  [if r.visited.isEmpty then "Nothing is wired to onPageLoad."
    else "Visited: " ++ " -> ".intercalate r.visited,
    "Steps:   " ++ toString r.steps ++ "/" ++ toString r.budget]
  ++ (if r.keysSet.members.isEmpty then []
    else ["Keys:    " ++ ", ".intercalate r.keysSet])
  ++ r.diagnostic?.toList.map fun d => "[" ++ d.code ++ "] " ++ d.message

/-- Runs a document dry. -/
def runSimulate (files : FileAccess m) (around : Surroundings)
    (options : GlobalOptions) (file : String) (budget : Option Nat) :
    Step m Transcript := do
  let config ← loadConfig files around options.config
  let document ← loadDocument files file
  let (normal, normalized) := document.normalize config.normalize
  let (repaired, mended) := normal.repairIfEnabled config
  let report := repaired.simulate (budget.getD config.simulation.stepBudget)
  if options.json then
    return .ofJson (.object [
      ("diagnostic",
        (Json.ofOption Diagnostic.encode report.diagnostic?).sortKeys),
      ("repairs", .ofNat (normalized ++ mended).length),
      ("simulation", report.encode.sortKeys)])
  return .ofLines (runReportLines report)

/-- Shows identifiers in canonical form. -/
def runCanon (options : GlobalOptions) (ids : List String) : Transcript :=
  if options.json then
    .ofJson (.ofList (fun id =>
      .object [("canonical", .string (canonicalId id)),
        ("input", .string id)]) ids)
  else match ids with
    | [id] => .ofLines [canonicalId id]
    | _ =>
      .ofLines (Table.lines ⟨["INPUT", "CANONICAL"], ids.map fun id =>
        [id, canonicalId id]⟩)

/-- Shows the settings in force. -/
def runShowConfig (files : FileAccess m) (around : Surroundings)
    (options : GlobalOptions) :
    Step m Transcript := do
  let config ← loadConfig files around options.config
  if options.json then return .ofJson config.encode
  let path ← (resolveConfig files around options.config : m (Option String))
  return ⟨"# " ++ path.getD "built-in defaults" ++ "\n" ++ config.toText, none⟩

/-- Reports what is questionable about the settings. -/
def runValidateConfig (files : FileAccess m) (around : Surroundings)
    (options : GlobalOptions) :
    Step m Transcript := do
  let config ← loadConfig files around options.config
  let issues := config.issues
  let shown : Transcript :=
    if options.json then
      .ofJson (.object [("warnings", .ofList ConfigIssue.encode issues)])
    else if issues.isEmpty then .ofLines ["Config is valid. No warnings."]
    else .ofLines (issues.map fun issue => "[" ++ issue.level.name ++ "] "
      ++ issue.message)
  return shown.failing (if config.isSound then none else some .unsoundConfig)

/-- Writes the default settings. -/
def runInitConfig (files : FileAccess m) (options : GlobalOptions)
    (force : Bool) :
    Step m Transcript := do
  let path := options.config.getD configFile
  if !force && (← files.isTaken path) then throw (.targetExists path)
  save files path Configuration.default.toText
  return .ofLines ["Wrote " ++ path]

/-- Runs a command. -/
def runCommand (files : FileAccess m) (around : Surroundings)
    (options : GlobalOptions) :
    Command → Step m Transcript
  | .compile file target skipRepair =>
    runCompile files around options file target skipRepair
  | .validate file full => runValidate files around options file full
  | .reach file => runReach files around options file
  | .simulate file budget => runSimulate files around options file budget
  | .canon ids => return runCanon options ids
  | .showConfig => runShowConfig files around options
  | .validateConfig => runValidateConfig files around options
  | .initConfig force => runInitConfig files options force

end Commands

/-! ## Runs -/

/-- Why a run of the program did not end well: it was called the wrong way, or a
command failed. -/
inductive RunError where
  | usage (error : UsageError)
  | command (error : CommandError)
  deriving DecidableEq

namespace RunError

/-- The text of an error. -/
def message : RunError → String
  | .usage error => "error: " ++ error.message
  | .command error => "error: " ++ error.message

/-- Whether an error is about a place inside a text. -/
def hasPlace : RunError → Bool
  | .command (.badConfig _ (.content _))
  | .command (.unreadable _ (.content _)) => true
  | _ => false

/-- The exit code that an error leads to. -/
def exitCode : RunError → Nat
  | .usage _ => 2
  | .command _ => 1

end RunError

/-- How a run of the program ended: what it printed, and its error after that,
if there is one. -/
structure RunResult where
  output : String
  error : Option RunError
  deriving DecidableEq

/-- The exit code of a run. -/
def RunResult.exitCode (r : RunResult) : Nat :=
  (r.error.map RunError.exitCode).getD 0

/-- The usage of the program. -/
def usage : String := String.join ([
  "Usage: actiongraph [--config <CONFIG>] [-j|--json] [-v|--verbose] <COMMAND>",
  "",
  "Commands:",
  "  compile <FILE> [-o|--out <OUT>] [--no-repair]  Compile a document and emit the result",
  "  validate <FILE> [--full]                       Normalize and validate without repairing",
  "  reach <FILE>                                   Report reachable and orphaned actions",
  "  simulate <FILE> [--budget <BUDGET>]            Dry-run the document's trigger wiring",
  "  canon <IDS>...                                 Print the canonical form of identifiers",
  "  config show|validate|init [--force]            Inspect and scaffold the compiler config"
  ].map (· ++ "\n"))

/-- The version of the program. -/
def version : String := "0.1.0"

/-- Runs the program on arguments and the path to settings that the environment
names. -/
def run {m : Type → Type} [Monad m] (files : FileAccess m)
    (around : Surroundings) (environment : Option String)
    (arguments : List String) : m RunResult := do
  match readInvocation environment arguments with
  | .error error => return ⟨"", some (.usage error)⟩
  | .ok .help => return ⟨usage, none⟩
  | .ok (.version name) => return ⟨name ++ " " ++ version ++ "\n", none⟩
  | .ok (.run options command) =>
    match ← (runCommand files around options command).run with
    | .ok transcript =>
      return ⟨transcript.output, transcript.failure.map .command⟩
    | .error failure => return ⟨"", some (.command failure)⟩

end IntentGraph.CommandLine
