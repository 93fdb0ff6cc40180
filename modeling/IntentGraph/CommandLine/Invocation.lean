import IntentGraph.CommandLine.Arguments

/-!
# Invocations

The commands of the program, and the reading of an invocation from arguments and
the environment. Global options may stand before and after the name of a
command; of several paths to a configuration the one given last in this order
counts, and the environment counts only when none is given. An environment that
names an empty path is refused wherever no path is given.
-/

namespace IntentGraph.CommandLine

/-- A command of the program. -/
inductive Command where
  | compile (file : String) (target : Option String) (skipRepair : Bool)
  | validate (file : String) (full : Bool)
  | reach (file : String)
  | simulate (file : String) (budget : Option Nat)
  | canon (ids : List String)
  | showConfig
  | validateConfig
  | initConfig (force : Bool)
  deriving DecidableEq

/-- The options that every command takes. -/
structure GlobalOptions where
  config : Option String
  json : Bool
  verbose : Bool
  deriving DecidableEq

/-- What the program is asked for. -/
inductive Invocation where
  | run (options : GlobalOptions) (command : Command)
  | help
  | version (name : String)
  deriving DecidableEq

/-! ## The grammar of commands -/

/-- The global options. -/
def globalOptions : List CommandOption := [
  ⟨"config", none, some .path⟩,
  ⟨"json", some 'j', none⟩,
  ⟨"verbose", some 'v', none⟩]

/-- A command with subcommands and no operands. -/
def Grammar.parent (subcommands : List String) : Grammar :=
  ⟨globalOptions, .text, some 0, subcommands ++ ["help"]⟩

/-- A command that takes options of its own and one file. -/
def Grammar.onFile (options : List CommandOption) : Grammar :=
  ⟨options ++ globalOptions, .path, some 1, []⟩

/-- A command that takes options of its own and no operands. -/
def Grammar.bare (options : List CommandOption) : Grammar :=
  ⟨options ++ globalOptions, .text, some 0, []⟩

/-- The program itself. -/
def programGrammar : Grammar :=
  .parent ["compile", "validate", "reach", "simulate", "canon", "config"]

/-- The commands on the configuration. -/
def configGrammar : Grammar := .parent ["show", "validate", "init"]

/-- The program's name. -/
def programName : String := "actiongraph"

/-! ## Reading -/

/-- A chain of commands, each a subcommand of the one before: its names, and the
global options that were given at every level. -/
structure Chain where
  names : List String
  levels : List Arguments

namespace Chain

/-- The chain with one more level. -/
def add (c : Chain) (name : String) (level : Arguments) : Chain :=
  ⟨c.names ++ [name], c.levels ++ [level]⟩

/-- The name that the version is reported under. -/
def versionName (names : List String) : String := "-".intercalate names

/-- The path to the configuration. -/
def config? (c : Chain) (environment : Option String) :
    Except UsageError (Option String) :=
  let given := c.levels.map (·.value? "config")
  if environment = some "" ∧ given.any (·.isNone) then
    .error (.missingValue "config")
  else .ok ((given.filterMap id).getLast?.or environment)

/-- The global options. -/
def globals (c : Chain) (environment : Option String) :
    Except UsageError GlobalOptions := do
  return ⟨← c.config? environment, c.levels.any (·.has "json"),
    c.levels.any (·.has "verbose")⟩

end Chain

/-- A command whose operands are all given, or nothing if one is missing. -/
abbrev Reader := Arguments → Except UsageError Command

/-- The only operand. -/
def requiredFile (a : Arguments) : Except UsageError String :=
  match a.operands with
  | file :: _ => .ok file
  | [] => .error (.missingOperand "<FILE>")

/-- The grammar of a command without subcommands, and how it is read. -/
def leaf? : List String → Option (Grammar × Reader)
  | ["compile"] =>
    some (.onFile [⟨"out", some 'o', some .path⟩, ⟨"no-repair", none, none⟩],
      fun a => do
        return .compile (← requiredFile a) (a.value? "out")
          (a.has "no-repair"))
  | ["validate"] => some (.onFile [⟨"full", none, none⟩],
      fun a => do return .validate (← requiredFile a) (a.has "full"))
  | ["reach"] => some (.onFile [], fun a => do return .reach (← requiredFile a))
  | ["simulate"] => some (.onFile [⟨"budget", none, some .natural⟩],
      fun a => do
        return .simulate (← requiredFile a)
          ((a.value? "budget").bind natural?))
  | ["canon"] => some (⟨globalOptions, .text, none, []⟩,
      fun a => if a.operands.isEmpty then .error (.missingOperand "<IDS>...")
        else .ok (.canon a.operands))
  | ["config", "show"] => some (.bare [], fun _ => .ok .showConfig)
  | ["config", "validate"] => some (.bare [], fun _ => .ok .validateConfig)
  | ["config", "init"] => some (.bare [⟨"force", none, none⟩],
      fun a => .ok (.initConfig (a.has "force")))
  | _ => none

/-- Whether the names that follow `help` lead to a command. -/
def isHelpTopic : List String → Bool
  | [] | ["help"] | ["config"] | ["config", "help"] => true
  | names => (leaf? names).isSome

/-- Reads a command without subcommands. -/
def readLeaf (environment : Option String) (chain : Chain) (name : String)
    (arguments : List String) : Except UsageError Invocation := do
  match leaf? (chain.names ++ [name]) with
  | none => throw (.unexpected name)
  | some (grammar, reader) =>
    match ← parse grammar arguments with
    | .help => return .help
    | .version =>
      return .version (Chain.versionName (programName :: chain.names ++ [name]))
    | .arguments a =>
      let command ← reader a
      return .run (← (chain.add name a).globals environment) command

/-- Reads the commands on the configuration. -/
def readConfig (environment : Option String) (chain : Chain)
    (arguments : List String) :
    Except UsageError Invocation := do
  match ← parse configGrammar arguments with
  | .help => return .help
  | .version => return .version (Chain.versionName [programName, "config"])
  | .arguments a =>
    match a.subcommand with
    | none => throw .missingSubcommand
    | some (name, rest) =>
      if name = "help" then
        if isHelpTopic ("config" :: rest) then return .help
          else throw (.unexpected "help")
      else readLeaf environment ⟨["config"], chain.levels ++ [a]⟩ name rest

/-- Reads an invocation of the program. -/
def readInvocation (environment : Option String) (arguments : List String) :
    Except UsageError Invocation := do
  match ← parse programGrammar arguments with
  | .help => return .help
  | .version => return .version programName
  | .arguments a =>
    match a.subcommand with
    | none => throw .missingSubcommand
    | some (name, rest) =>
      if name = "help" then
        if isHelpTopic rest then return .help else throw (.unexpected "help")
      else if name = "config" then readConfig environment ⟨[], [a]⟩ rest
      else readLeaf environment ⟨[], [a]⟩ name rest

end IntentGraph.CommandLine
