import IntentGraph.Json.Basic
import IntentGraph.Wire.Decoder

/-!
# The audit trail

Every change that a stage makes leaves a record of the rule that fired, and
problems that do not refuse a document are diagnostics.
-/

namespace IntentGraph

/-- A stage of the compiler. -/
inductive Stage where
  | normalize
  | validate
  | repair
  | graph
  | simulate
  deriving DecidableEq

namespace Stage

/-- The name of a stage. -/
def name : Stage → String
  | .normalize => "normalize"
  | .validate => "validate"
  | .repair => "repair"
  | .graph => "graph"
  | .simulate => "simulate"

/-- The stages by name. -/
def variants : List (String × Stage) :=
  [Stage.normalize, .validate, .repair, .graph, .simulate].map
    fun s => (s.name, s)

/-- Reads a stage. -/
def decode : Decoder Stage := decodeVariant variants

end Stage

/-- A rule by which a document is changed. -/
inductive AuditRule where
  | canonicalizeId
  | migrateLegacyKind
  | lowerSourceTarget
  | canonicalizeFilterKey
  | filterSentinel
  | optionSentinel
  | removeRedundantStatusSetter
  | bindStateChange
  | bindPageLoad
  | bindSafetyNet
  | synthesizeNormalizer
  | synthesizeStatusMirror
  deriving DecidableEq

namespace AuditRule

/-- The name of a rule. -/
def name : AuditRule → String
  | .canonicalizeId => "canonicalize_id"
  | .migrateLegacyKind => "migrate_legacy_kind"
  | .lowerSourceTarget => "lower_source_target"
  | .canonicalizeFilterKey => "canonicalize_filter_key"
  | .filterSentinel => "filter_sentinel"
  | .optionSentinel => "option_sentinel"
  | .removeRedundantStatusSetter => "remove_redundant_status_setter"
  | .bindStateChange => "bind_state_change"
  | .bindPageLoad => "bind_page_load"
  | .bindSafetyNet => "bind_safety_net"
  | .synthesizeNormalizer => "synthesize_normalizer"
  | .synthesizeStatusMirror => "synthesize_status_mirror"

/-- The rules by name. -/
def variants : List (String × AuditRule) :=
  [AuditRule.canonicalizeId, .migrateLegacyKind, .lowerSourceTarget,
    .canonicalizeFilterKey, .filterSentinel, .optionSentinel,
    .removeRedundantStatusSetter, .bindStateChange, .bindPageLoad,
    .bindSafetyNet, .synthesizeNormalizer,
    .synthesizeStatusMirror].map fun r => (r.name, r)

/-- Reads a rule. -/
def decode : Decoder AuditRule := decodeVariant variants

end AuditRule

/-! ## Records -/

/-- A rule that fired, and the action it fired for if there is one. -/
structure AuditRecord where
  stage : Stage
  actionId : Option String
  rule : AuditRule
  detail : String
  deriving DecidableEq

namespace AuditRecord

/-- The fields of a record. -/
def fields : List (Field AuditRecord) := [
  .required "stage" Stage.decode fun stage r => { r with stage },
  .optional "actionId" (decodeOption decodeString) fun actionId r =>
    { r with actionId },
  .required "ruleApplied" AuditRule.decode fun rule r => { r with rule },
  .required "detail" decodeString fun detail r => { r with detail }]

/-- Reads a record. -/
def decode : Decoder AuditRecord :=
  decodeRecord "RepairRecord" ⟨.normalize, none, .canonicalizeId, ""⟩ fields

/-- Writes a record. -/
def encode (r : AuditRecord) : Json := .record [
  Entry.always "stage" (.string r.stage.name),
  Entry.text? "actionId" r.actionId,
  Entry.always "ruleApplied" (.string r.rule.name),
  Entry.always "detail" (.string r.detail)]

end AuditRecord

/-- The records of a run, in the order in which the rules fired. -/
abbrev AuditLog := List AuditRecord

namespace AuditLog

/-- Whether a rule fired. -/
def fired (log : AuditLog) (rule : AuditRule) : Bool := log.any (·.rule = rule)

/-- Whether a rule fired for an action. -/
def firedFor (log : AuditLog) (rule : AuditRule) (action : String) : Bool :=
  log.any fun r => r.rule = rule && r.actionId = some action

/-- The records of a stage. -/
def ofStage (log : AuditLog) (stage : Stage) : AuditLog :=
  log.filter (·.stage = stage)

/-- Reads a log. -/
def decode : Decoder AuditLog := decodeList AuditRecord.decode

/-- Writes a log. -/
def encode (log : AuditLog) : Json := .ofList AuditRecord.encode log

end AuditLog

/-! ## Diagnostics -/

/-- A problem that does not refuse a document. -/
structure Diagnostic where
  stage : Stage
  code : String
  actionId : Option String
  message : String
  deriving DecidableEq

namespace Diagnostic

/-- Writes a diagnostic. -/
def encode (d : Diagnostic) : Json := .record [
  Entry.always "stage" (.string d.stage.name),
  Entry.always "code" (.string d.code),
  Entry.text? "actionId" d.actionId,
  Entry.always "message" (.string d.message)]

end Diagnostic

end IntentGraph
