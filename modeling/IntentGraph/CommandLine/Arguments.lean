import IntentGraph.Text

/-!
# Arguments

How a list of arguments is taken apart, given what a command accepts: options
with and without a value, in long form or in clusters of letters, operands, and
the name of a subcommand, which ends the arguments of the command itself. Two
dashes end the options.

* An option is given at most once, and a value is never something that looks
  like an option.
* The first thing wrong is reported; a request for help or for the version wins
  over what follows.
-/

namespace IntentGraph.CommandLine

/-! ## What a command accepts -/

/-- What a value may be. -/
inductive ValueKind where
  /-- Any text. -/
  | text
  /-- A path, which is not empty. -/
  | path
  /-- A natural number of at most 64 bits. -/
  | natural
  deriving DecidableEq

/-- An option of a command: its name, its letter, and the kind of its value if
it takes one. -/
structure CommandOption where
  name : String
  letter : Option Char
  value : Option ValueKind
  deriving DecidableEq

/-- What a command accepts: options, operands of a kind, as many as given or at
most so many, and subcommands. -/
structure Grammar where
  options : List CommandOption
  operandKind : ValueKind
  operandLimit : Option Nat
  subcommands : List String

/-! ## What can be wrong -/

/-- Why arguments are refused. -/
inductive UsageError where
  | unexpected (argument : String)
  | repeated (option : String)
  | missingValue (option : String)
  | unexpectedValue (option : String)
  | invalidValue (value : String)
  | missingOperand (name : String)
  | missingSubcommand
  deriving DecidableEq

namespace UsageError

/-- The wording of an error. -/
def message : UsageError → String
  | .unexpected argument => "unexpected argument '" ++ argument ++ "' found"
  | .repeated option =>
    "the argument '--" ++ option ++ "' cannot be used multiple times"
  | .missingValue option =>
    "a value is required for '--" ++ option ++ "' but none was supplied"
  | .unexpectedValue option =>
    "unexpected value for '--" ++ option ++ "' found; no more were expected"
  | .invalidValue value => "invalid value '" ++ value ++ "'"
  | .missingOperand name =>
    "the following required arguments were not provided: " ++ name
  | .missingSubcommand => "a subcommand is required"

end UsageError

/-! ## Values -/

/-- The natural number that a text spells, a plus sign in front allowed. -/
def natural? (s : String) : Option Nat :=
  let digits := match s.toList with
    | '+' :: rest => rest
    | cs => cs
  if digits.isEmpty || !digits.all Char.isDigit then none
  else
    let n := digits.foldl (fun n c => n * 10 + (c.toNat - '0'.toNat)) 0
    if n < Nat.pow 2 64 then some n else none

/-- Whether a text is a value of a kind. -/
def ValueKind.accepts : ValueKind → String → Bool
  | .text, _ => true
  | .path, s => s ≠ ""
  | .natural, s => (natural? s).isSome

/-! ## Taking arguments apart -/

/-- The arguments of one command: the options that were given with their values,
the operands, and the subcommand with what follows it. -/
structure Arguments where
  options : List (String × String)
  operands : List String
  subcommand : Option (String × List String)
  deriving DecidableEq

namespace Arguments

/-- Whether an option was given. -/
def has (a : Arguments) (name : String) : Bool := a.options.any (·.1 == name)

/-- The value of an option. -/
def value? (a : Arguments) (name : String) : Option String :=
  a.options.lookup name

end Arguments

/-- What a list of arguments amounts to. -/
inductive Parsed where
  | help
  | version
  | arguments (arguments : Arguments)
  deriving DecidableEq

/-- The options and operands met so far. -/
structure Draft where
  options : List (String × String)
  operands : List String

namespace Draft

/-- Adds an option with its value. -/
def addOption (d : Draft) (o : CommandOption) (value : String) :
    Except UsageError Draft :=
  if !((o.value.map (·.accepts value)).getD true) then
    .error (.invalidValue value)
  else if d.options.any (·.1 == o.name) then .error (.repeated o.name)
  else .ok { d with options := d.options ++ [(o.name, value)] }

/-- Adds an operand. -/
def addOperand (grammar : Grammar) (d : Draft) (operand : String) :
    Except UsageError Draft :=
  if (grammar.operandLimit.map fun n =>
      decide (n ≤ d.operands.length)).getD false then
    .error (.unexpected operand)
  else if grammar.operandKind.accepts operand then
    .ok { d with operands := d.operands ++ [operand] }
  else .error (.invalidValue operand)

/-- Adds operands. -/
def addOperands (grammar : Grammar) (d : Draft) (operands : List String) :
    Except UsageError Draft :=
  operands.foldlM (addOperand grammar) d

end Draft

/-- What one argument comes to: it is done with, it leaves an option that waits
for its value, or it asks for help or for the version. -/
inductive Effect where
  | done (draft : Draft)
  | waiting (option : CommandOption) (draft : Draft)
  | help
  | version

/-- Takes a long option, without its dashes. -/
def takeLong (grammar : Grammar) (d : Draft) (body : List Char) :
    Except UsageError Effect :=
  let name := String.ofList (body.takeWhile (· ≠ '='))
  let attached := match body.dropWhile (· ≠ '=') with
    | [] => none
    | _ :: value => some (String.ofList value)
  match grammar.options.find? (·.name == name), attached with
  | some o, none =>
    if o.value.isSome then .ok (.waiting o d) else (d.addOption o "").map .done
  | some o, some value =>
    if o.value.isSome then (d.addOption o value).map .done
      else .error (.unexpectedValue name)
  | none, none =>
    if name = "help" then .ok .help
    else if name = "version" then .ok .version
    else .error (.unexpected ("--" ++ name))
  | none, some _ => .error (.unexpected ("--" ++ name))

/-- Takes a cluster of letters, without its dash. What follows the letter of an
option with a value is the value. -/
def takeLetters (grammar : Grammar) (d : Draft) :
    List Char → Except UsageError Effect
  | [] => .ok (.done d)
  | c :: rest =>
    match grammar.options.find? (·.letter == some c) with
    | some o =>
      if o.value.isSome then
        match rest with
        | [] => .ok (.waiting o d)
        | '=' :: value => (d.addOption o (String.ofList value)).map .done
        | value => (d.addOption o (String.ofList value)).map .done
      else do takeLetters grammar (← d.addOption o "") rest
    | none =>
      if c = 'h' then .ok .help
      else if c = 'V' then .ok .version
      else .error (.unexpected (String.ofList ['-', c]))

/-- Whether an argument looks like an option. A single dash does not. -/
def looksLikeOption (argument : String) : Bool :=
  match argument.toList with
  | '-' :: _ :: _ => true
  | _ => false

/-- Takes an argument that looks like an option. -/
def takeOption (grammar : Grammar) (d : Draft) (argument : String) :
    Except UsageError Effect :=
  match argument.toList with
  | '-' :: '-' :: body => takeLong grammar d body
  | '-' :: letters => takeLetters grammar d letters
  | _ => .ok (.done d)

/-- Takes the arguments of a command apart, given the option that waits for its
value, if any. -/
def parseFrom (grammar : Grammar) (d : Draft) :
    (waiting : Option CommandOption) → List String → Except UsageError Parsed
  | none, [] => .ok (.arguments ⟨d.options, d.operands, none⟩)
  | some o, [] => .error (.missingValue o.name)
  | some o, argument :: rest => do
    if looksLikeOption argument then throw (.missingValue o.name)
    else parseFrom grammar (← d.addOption o argument) none rest
  | none, argument :: rest => do
    -- the name of a subcommand is never an operand
    if grammar.subcommands.contains argument then
      return .arguments ⟨d.options, d.operands, some (argument, rest)⟩
    else if argument = "--" then
      let d ← d.addOperands grammar rest
      return .arguments ⟨d.options, d.operands, none⟩
    else if looksLikeOption argument then
      match ← takeOption grammar d argument with
      | .done d => parseFrom grammar d none rest
      | .waiting o d => parseFrom grammar d (some o) rest
      | .help => return .help
      | .version => return .version
    else parseFrom grammar (← d.addOperand grammar argument) none rest

/-- Takes the arguments of a command apart. -/
def parse (grammar : Grammar) (arguments : List String) :
    Except UsageError Parsed :=
  parseFrom grammar ⟨[], []⟩ none arguments

end IntentGraph.CommandLine
