import IntentGraph.Configuration
import IntentGraph.Validation.Actions
import IntentGraph.Validation.Components

/-!
# Validation

The table of rules, and the report on a document. Rules stand in order of
priority, and the first fatal finding in that order refuses the document. Rules
of scope `contract` describe what repair is expected to mend; they count only in
a full validation.
-/

namespace IntentGraph

/-- Whether a finding refuses a document. -/
inductive Severity where
  | fatal
  | advisory
  deriving DecidableEq

/-- The name of a severity. -/
def Severity.name : Severity → String
  | .fatal => "fatal"
  | .advisory => "advisory"

/-- Whether a rule holds of documents as they come, or only of repaired ones. -/
inductive Scope where
  | structural
  | contract
  deriving DecidableEq

/-- The name of a scope. -/
def Scope.name : Scope → String
  | .structural => "structural"
  | .contract => "contract"

/-- How much is validated. -/
inductive ValidationMode where
  | structural
  | full
  deriving DecidableEq

/-- Whether a mode covers the rules of a scope. -/
def ValidationMode.covers : ValidationMode → Scope → Bool
  | .full, _ => true
  | .structural, scope => scope = .structural

/-! ## Rules -/

/-- A rule of validation. -/
structure Rule where
  id : String
  severity : Severity
  scope : Scope
  check : Configuration → View → List Violation

namespace Rule

/-- A rule that refuses a document. -/
def fatal (id : String) (check : View → List Violation) : Rule :=
  ⟨id, .fatal, .structural, fun _ => check⟩

/-- A rule that only advises. -/
def advisory (id : String) (check : View → List Violation) : Rule :=
  ⟨id, .advisory, .structural, fun _ => check⟩

/-- The rules, in order of priority. -/
def table : List Rule := [
  fatal "component_kind_allowed" View.componentKindViolations,
  fatal "action_kind_allowed" View.actionKindViolations,
  fatal "payload_types_known" View.payloadViolations,
  fatal "unique_action_ids" View.duplicateViolations,
  fatal "page_events_are_lifecycle" View.pageEventViolations,
  fatal "event_targets_exist" View.eventTargetViolations,
  fatal "component_ownership" View.ownershipViolations,
  fatal "list_children_are_ids" View.listChildrenViolations,
  fatal "list_single_render_model" View.renderModelViolations,
  fatal "no_click_on_item_template" View.itemClickViolations,
  fatal "disabled_key_is_plain" View.disabledKeyViolations,
  fatal "select_binding_contract" View.bindingViolations,
  fatal "static_options_not_empty" View.optionViolations,
  fatal "data_authority" View.dataAuthorityViolations,
  ⟨"integration_output_consumed", .fatal, .contract,
    fun c => View.unconsumedViolations c.effectOnlyPrefixes⟩,
  advisory "unread_mutation" View.unreadViolations,
  advisory "duplicate_binding" View.sharedBindingViolations,
  advisory "inline_children" View.inlineChildrenViolations]

end Rule

/-! ## Findings -/

/-- A violation under the rule that found it. -/
structure Finding where
  rule : String
  severity : Severity
  violation : Violation
  deriving DecidableEq

namespace Finding

/-- Whether the finding refuses the document. -/
def isFatal (f : Finding) : Bool := f.severity = .fatal

/-- The wording of the finding, under its rule. -/
def reason (f : Finding) : String := f.rule ++ ": " ++ f.violation.message

/-- Writes a finding. -/
def encode (f : Finding) : Json := .record [
  Entry.always "rule" (.string f.rule),
  Entry.always "severity" (.string f.severity.name),
  Entry.always "message" (.string f.violation.message),
  Entry.text? "actionId" f.violation.actionId?,
  Entry.present "allowedKinds" Json.ofStrings f.violation.allowedKinds?]

end Finding

/-- The findings on a document, in order of priority. -/
abbrev Findings := List Finding

namespace Findings

/-- The first finding that refuses the document. -/
def fatal? (findings : Findings) : Option Finding :=
  List.find? (·.isFatal) findings

/-- The findings that only advise. -/
def advisories (findings : Findings) : List Finding :=
  List.filter (fun f => !f.isFatal) findings

end Findings

namespace View

/-- The findings of a mode on a view. -/
def validate (config : Configuration) (mode : ValidationMode)
    (v : View) : Findings :=
  (Rule.table.filter fun rule => mode.covers rule.scope).flatMap fun rule =>
    (rule.check config v).map fun violation =>
      ⟨rule.id, rule.severity, violation⟩

end View

end IntentGraph
