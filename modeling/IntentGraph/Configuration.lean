import IntentGraph.Document.Kind
import IntentGraph.Json.Basic
import IntentGraph.Wire.Decoder

/-!
# Configuration

The settings of the compiler with their defaults, the capabilities they
declare, and what is questionable about a choice of settings
(`Configuration.issues`).
-/

namespace IntentGraph

/-!
## Capabilities

The external capabilities that a call to an integration can be routed to. Of
several declarations of one id the last counts.
-/

/-- An external capability. One that is ephemeral has no provider behind it. -/
structure Capability where
  id : String
  provider : Option String
  ephemeral : Bool
  deriving DecidableEq

namespace Capability

/-- Reads a capability. -/
def decode : Decoder Capability := decodeRecord "Capability" ⟨"", none, false⟩ [
  .required "id" decodeString fun id c => { c with id },
  .defaulted "provider" (decodeOption decodeString) fun provider c =>
    { c with provider },
  .defaulted "ephemeral" decodeBool fun ephemeral c => { c with ephemeral }]

/-- Writes a capability. -/
def encode (c : Capability) : Json := .record [
  Entry.always "id" (.string c.id),
  Entry.text? "provider" c.provider,
  Entry.always "ephemeral" (.bool c.ephemeral)]

end Capability

/-- The capabilities that are declared, in order. -/
abbrev Catalog := List Capability

namespace Catalog

/-- The capability of an id: the last one declared. -/
def resolve? (catalog : Catalog) (id : String) : Option Capability :=
  List.find? (·.id == id) (List.reverse catalog)

/-- The ids that are declared, each once. -/
def ids (catalog : Catalog) : List String := (List.map (·.id) catalog).eraseDups

end Catalog

/-! ## Settings of the stages -/

/-- The settings of normalization: the kinds that are migrated, and the text
that stands for an empty filter or option. -/
structure NormalizeSettings where
  legacyKinds : List String
  filterSentinel : String
  deriving DecidableEq

namespace NormalizeSettings

/-- The settings that hold unless others are given. -/
def default : NormalizeSettings where
  legacyKinds :=
    ["assign", "filter", "map", "derive_state", "state_update",
      "state_assign", "transform"]
  filterSentinel := "all"

/-- Whether a kind is migrated. Kinds are compared like ids. -/
def isLegacyKind (settings : NormalizeSettings) (kind : String) : Bool :=
  settings.legacyKinds.any fun legacy => canonicalId legacy == canonicalId kind

/-- Reads the settings of normalization. -/
def decode : Decoder NormalizeSettings :=
  decodeRecord "NormalizeConfig" default [
  .defaulted "legacy_kinds" (decodeList decodeString) fun legacyKinds s =>
    { s with legacyKinds },
  .defaulted "filter_sentinel" decodeString fun filterSentinel s =>
    { s with filterSentinel }]

/-- Writes the settings of normalization. -/
def encode (s : NormalizeSettings) : Json := .object [
  ("legacy_kinds", .ofStrings s.legacyKinds),
  ("filter_sentinel", .string s.filterSentinel)]

end NormalizeSettings

/-- The settings of repair. -/
structure RepairSettings where
  enabled : Bool
  synthesizeNormalizers : Bool
  synthesizeStatusMirrors : Bool
  safetyNetReason : String
  deriving DecidableEq

namespace RepairSettings

/-- The settings that hold unless others are given. -/
def default : RepairSettings := ⟨true, true, true, "system_safety_net"⟩

/-- Reads the settings of repair. -/
def decode : Decoder RepairSettings := decodeRecord "RepairConfig" default [
  .defaulted "enabled" decodeBool fun enabled s => { s with enabled },
  .defaulted "synthesize_normalizers" decodeBool fun synthesizeNormalizers s =>
    { s with synthesizeNormalizers },
  .defaulted "synthesize_status_mirrors" decodeBool
  fun synthesizeStatusMirrors s => { s with synthesizeStatusMirrors },
  .defaulted "safety_net_reason" decodeString fun safetyNetReason s =>
    { s with safetyNetReason }]

/-- Writes the settings of repair. -/
def encode (s : RepairSettings) : Json := .object [
  ("enabled", .bool s.enabled),
  ("synthesize_normalizers", .bool s.synthesizeNormalizers),
  ("synthesize_status_mirrors", .bool s.synthesizeStatusMirrors),
  ("safety_net_reason", .string s.safetyNetReason)]

end RepairSettings

/-- The settings of the dry run. -/
structure SimulationSettings where
  stepBudget : Nat
  deriving DecidableEq

namespace SimulationSettings

/-- The settings that hold unless others are given. -/
def default : SimulationSettings := ⟨100⟩

/-- Reads the settings of the dry run. -/
def decode : Decoder SimulationSettings :=
  decodeRecord "SimulationConfig" default [
  .defaulted "step_budget" (decodeNatural "usize" 64) fun stepBudget _ =>
    ⟨stepBudget⟩]

/-- Writes the settings of the dry run. -/
def encode (s : SimulationSettings) : Json :=
  .object [("step_budget", .ofNat s.stepBudget)]

end SimulationSettings

/-! ## All settings -/

/-- The settings of the compiler. -/
structure Configuration where
  version : Nat
  normalize : NormalizeSettings
  repair : RepairSettings
  simulation : SimulationSettings
  capabilities : Catalog
  effectOnlyPrefixes : List String
  deriving DecidableEq

namespace Configuration

/-- The settings that hold unless others are given. -/
def default : Configuration where
  version := 1
  normalize := .default
  repair := .default
  simulation := .default
  capabilities := []
  effectOnlyPrefixes :=
    ["open_", "navigate", "send_", "notify_", "track_", "log_",
      "submit_", "delete_"]

/-- Reads the settings of the compiler. -/
def decode : Decoder Configuration := decodeRecord "CompilerConfig" default [
  .defaulted "version" (decodeNatural "u32" 32) fun version c =>
    { c with version },
  .defaulted "normalize" NormalizeSettings.decode fun normalize c =>
    { c with normalize },
  .defaulted "repair" RepairSettings.decode fun repair c => { c with repair },
  .defaulted "simulation" SimulationSettings.decode fun simulation c =>
    { c with simulation },
  .defaulted "capabilities" (decodeList Capability.decode) fun capabilities c =>
    { c with capabilities },
  .defaulted "effect_only_prefixes" (decodeList decodeString)
  fun effectOnlyPrefixes c => { c with effectOnlyPrefixes }]

/-- Writes the settings of the compiler. -/
def encode (c : Configuration) : Json := .record [
  Entry.always "version" (.ofNat c.version),
  Entry.always "normalize" c.normalize.encode,
  Entry.always "repair" c.repair.encode,
  Entry.always "simulation" c.simulation.encode,
  Entry.list "capabilities" Capability.encode c.capabilities,
  Entry.always "effect_only_prefixes" (.ofStrings c.effectOnlyPrefixes)]

end Configuration

/-! ## Questionable settings -/

/-- What is questionable about a choice of settings. -/
inductive ConfigIssue where
  | noBudget
  | largeBudget (budget : Nat)
  | shadowedKind (kind : String)
  | blankSentinel
  | blankReason
  | blankCapability
  | repeatedCapability (id : String)
  deriving DecidableEq

/-- How serious an issue is. -/
inductive IssueLevel where
  | warning
  | error
  deriving DecidableEq

namespace IssueLevel

/-- The name of a level. -/
def name : IssueLevel → String
  | .warning => "warning"
  | .error => "error"

end IssueLevel

namespace ConfigIssue

/-- How serious the issue is. -/
def level : ConfigIssue → IssueLevel
  | .largeBudget _ | .repeatedCapability _ => .warning
  | .noBudget | .shadowedKind _ | .blankSentinel | .blankReason
  | .blankCapability => .error

/-- The wording of the issue. -/
def message : ConfigIssue → String
  | .noBudget => "simulation.step_budget must be greater than 0"
  | .largeBudget budget =>
    "simulation.step_budget=" ++ toString budget ++ " (>10000 is unusual)"
  | .shadowedKind kind =>
    "legacy kind '" ++ kind ++ "' shadows a canonical action kind"
  | .blankSentinel => "normalize.filter_sentinel must not be empty"
  | .blankReason => "repair.safety_net_reason must not be empty"
  | .blankCapability => "capability with an empty id"
  | .repeatedCapability id =>
    "capability '" ++ id ++ "' is declared more than once"

/-- Writes an issue. -/
def encode (issue : ConfigIssue) : Json := .object [
  ("level", .string issue.level.name),
  ("message", .string issue.message)]

end ConfigIssue

namespace Configuration

/-- The issues of the capabilities, given the ids of those before them. -/
def capabilityIssues : (seen : List String) → Catalog → List ConfigIssue
  | _, [] => []
  | seen, capability :: rest =>
    if Text.isBlankText capability.id then
      .blankCapability :: capabilityIssues seen rest
    else if seen.contains capability.id then
      .repeatedCapability capability.id :: capabilityIssues seen rest
    else capabilityIssues (capability.id :: seen) rest

/-- All that is questionable about the settings. -/
def issues (c : Configuration) : List ConfigIssue :=
  (if c.simulation.stepBudget = 0 then [.noBudget]
    else if 10000 < c.simulation.stepBudget then
      [.largeBudget c.simulation.stepBudget]
    else [])
  ++ (c.normalize.legacyKinds.filter fun kind =>
    (ActionKind.ofName kind).unknown?.isNone).map
    .shadowedKind
  ++ (if Text.isBlankText c.normalize.filterSentinel
    then [.blankSentinel] else [])
  ++ (if Text.isBlankText c.repair.safetyNetReason then [.blankReason] else [])
  ++ capabilityIssues [] c.capabilities

/-- Whether the settings have no issue of level error. -/
def isSound (c : Configuration) : Bool := c.issues.all (·.level ≠ .error)

end Configuration

end IntentGraph
