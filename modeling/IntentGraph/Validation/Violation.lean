import IntentGraph.Json.Printer
import IntentGraph.Ownership

/-!
# Violations

What a rule of validation can find, as causes, with their wording and what else
a report says about them: the action concerned, and the kinds that would have
been allowed.
-/

namespace IntentGraph

/-- What a rule of validation finds. -/
inductive Violation where
  | componentKind (id kind : String)
  | actionKind (id kind : String)
  | unknownTrigger (action : String) (raw : Json)
  | unknownStep (action : String) (raw : Json)
  | unknownDataSource (component : String) (raw : Json)
  | duplicateAction (id : String)
  | nonLifecycleEvent (page event action : String)
  | componentTarget (component action : String)
  | pageTarget (page action : String)
  | ownership (issue : OwnershipIssue)
  | inlineListChildren (id : String)
  | mixedListModels (id : String) (models : List String)
  | clickOnItemTemplate (id : String)
  | disabledKey (id : String) (value : Json)
  | noOptionValueKey (kind id : String)
  | boundTwice (kind id : String)
  | unbound (kind id : String)
  | emptyOption (kind id : String)
  | listData (action key : String)
  | unconsumedOutput (action key : String)
  | unreadWrite (action key : String)
  | sharedBinding (page key : String) (components : List String)
  | inlineChildren (id : String)
  deriving DecidableEq

namespace Violation

/-- The wording of a violation. -/
def message : Violation → String
  | .componentKind id kind =>
    "component '" ++ id ++ "' has kind '" ++ kind
      ++ "', which is not in the allow-list"
  | .actionKind _ kind => "action kind '" ++ kind ++ "' is not allowed"
  | .unknownTrigger action raw =>
    "action '" ++ action ++ "' has a trigger of unknown or malformed type "
      ++ describePayload raw
  | .unknownStep action raw =>
    "action '" ++ action ++ "' has a step of unknown or malformed type "
      ++ describePayload raw
  | .unknownDataSource component raw =>
    "component '" ++ component
      ++ "' has a dataSource of unknown or malformed type "
      ++ describePayload raw
  | .duplicateAction id => "duplicate action id '" ++ id ++ "'"
  | .nonLifecycleEvent page event _ =>
    "page '" ++ page ++ "' wires non-lifecycle event '" ++ event ++ "'"
  | .componentTarget component action =>
    "component '" ++ component ++ "' references unknown action '"
      ++ action ++ "'"
  | .pageTarget page action =>
    "page '" ++ page ++ "' references unknown action '" ++ action ++ "'"
  | .ownership issue => issue.message
  | .inlineListChildren id =>
    "list '" ++ id ++ "' declares inline children; use component ids"
  | .mixedListModels id models =>
    "list '" ++ id ++ "' mixes rendering models: " ++ ", ".intercalate models
  | .clickOnItemTemplate id =>
    "list '" ++ id ++ "' attaches onClick to its item template; "
      ++ "handle onSelect on the list instead"
  | .disabledKey id value =>
    "component '" ++ id ++ "' has disabledKey " ++ value.compact
      ++ "; it must name a state key, not an expression"
  | .noOptionValueKey kind id =>
    kind ++ " '" ++ id ++ "' must declare a non-empty optionValueKey"
  | .boundTwice kind id =>
    kind ++ " '" ++ id ++ "' declares both bindKey and a stateUpdate event"
  | .unbound kind id =>
    kind ++ " '" ++ id ++ "' declares neither bindKey nor a stateUpdate event"
  | .emptyOption kind id =>
    kind ++ " '" ++ id ++ "' has an empty-string option value"
  | .listData action key =>
    "internal action '" ++ action ++ "' assigns list data to '" ++ key
      ++ "'; list data must come from an integration_call"
  | .unconsumedOutput action key =>
    "integration_call '" ++ action ++ "' assigns '" ++ key
      ++ "' but nothing consumes it"
  | .unreadWrite action key =>
    "action '" ++ action ++ "' writes '" ++ key ++ "', which nothing reads"
  | .sharedBinding page key components =>
    "page '" ++ page ++ "' binds '" ++ key ++ "' from several components: "
      ++ ", ".intercalate components
  | .inlineChildren id => "component '" ++ id ++ "' declares inline children"

/-- The action that a violation concerns. -/
def actionId? : Violation → Option String
  | .actionKind id _ | .duplicateAction id => some id
  | .unknownTrigger action _ | .unknownStep action _
  | .nonLifecycleEvent _ _ action
  | .componentTarget _ action | .pageTarget _ action | .listData action _
  | .unconsumedOutput action _ | .unreadWrite action _ => some action
  | .componentKind _ _ | .unknownDataSource _ _ | .ownership _
  | .inlineListChildren _ | .mixedListModels _ _ | .clickOnItemTemplate _
  | .disabledKey _ _ | .noOptionValueKey _ _
  | .boundTwice _ _ | .unbound _ _ | .emptyOption _ _ | .sharedBinding _ _ _
  | .inlineChildren _ => none

/-- The kinds that would have been allowed. -/
def allowedKinds? : Violation → Option (List String)
  | .componentKind _ _ => some (ComponentKind.allowed.map (·.name))
  | .actionKind _ _ => some (ActionKind.allowed.map (·.name))
  | _ => none

end Violation

end IntentGraph
