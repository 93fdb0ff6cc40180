import IntentGraph.Validation.Violation

/-!
# Rules on actions and pages

Each function lists the violations of one rule among the actions and the pages
of a mutation.
-/

namespace IntentGraph.View

/-! ## Vocabulary -/

/-- Actions of a kind that is not allowed. -/
def actionKindViolations (v : View) : List Violation :=
  v.mutation.actions.filterMap fun a => a.kind.unknown?.map (.actionKind a.id)

/-- Triggers, steps and data sources that were not recognized. -/
def payloadViolations (v : View) : List Violation :=
  (v.mutation.actions.flatMap fun a =>
    (a.triggeredBy.filterMap Trigger.raw?).map (.unknownTrigger a.id)
      ++ (a.steps.filterMap Step.raw?).map (.unknownStep a.id))
  ++ v.mutation.components.filterMap fun c =>
    (c.dataSource.bind DataSource.raw?).map (.unknownDataSource c.id)

/-- The elements of a list that occur before, given those seen so far. -/
def repeated (seen : List String) : List String → List String
  | [] => []
  | id :: rest =>
    if seen.contains id then id :: repeated seen rest
      else repeated (id :: seen) rest

/-- Ids that an earlier action has. -/
def duplicateViolations (v : View) : List Violation :=
  (repeated [] (v.mutation.actions.map (·.id))).map .duplicateAction

/-! ## Wiring -/

/-- Page events that are no lifecycle events. -/
def pageEventViolations (v : View) : List Violation :=
  v.mutation.pages.flatMap fun p =>
    (p.events.filter fun e => !Lifecycle.isEvent e.kind).map fun e =>
      .nonLifecycleEvent p.id e.kind e.actionId

/-- Events that dispatch to no action of the view. -/
def eventTargetViolations (v : View) : List Violation :=
  let known := v.actionIds
  (v.mutation.components.flatMap fun c =>
    (c.actionRefs.filter fun id => !known.contains id).map
      (.componentTarget c.id))
  ++ v.mutation.pages.flatMap fun p =>
    ((p.events.map (·.actionId)).filter fun id => !known.contains id).map
      (.pageTarget p.id)

/-! ## Data flow -/

/-- Whether a value is a list with something in it. -/
def isListData (value : Json) : Bool :=
  value.asArray?.any fun items => !items.isEmpty

/-- The keys of the update map that hold list data. -/
def listUpdates (a : Action) : List String :=
  match a.config.get? ConfigKey.updates with
  | some (.object updates) =>
    Fields.keys (updates.filter fun (_, value) => isListData value)
  | _ => []

/-- The key that a step writes list data to. -/
def listWrite? : Step → Option String
  | .stateMutation key (some value) none =>
    if isListData value then some key else none
  | _ => none

/-- The keys that an action writes list data to, or that belong to integrations
and are written from a literal. -/
def authorityBreaches (v : View) (a : Action) : KeySet :=
  let outputs := v.integrationOutputs
  KeySet.ofList (a.literalWrites.members.filter outputs.contains
    ++ listUpdates a
    ++ a.steps.filterMap listWrite?)

/-- Internal actions that put list data into the state, with the first key
concerned. -/
def dataAuthorityViolations (v : View) : List Violation :=
  (v.mutation.actions.filter (·.kind = .internal)).filterMap fun a =>
    (v.authorityBreaches a).members.head?.map (.listData a.id)

/-- The assigned key of a call to an integration whose result somebody should
read. -/
def expectedOutput? (effectPrefixes : List String) (a : Action) :
    Option String :=
  if a.kind = .integrationCall && !a.looksEffectOnly effectPrefixes then
    a.assignedKey?
  else none

/-- Calls to integrations whose result nobody reads. -/
def unconsumedViolations (effectPrefixes : List String) (v : View) :
    List Violation :=
  v.mutation.actions.filterMap fun a =>
    ((expectedOutput? effectPrefixes a).filter fun key =>
      !v.isConsumed key a.id).map (.unconsumedOutput a.id)

/-! ## Advisories -/

/-- Writes that nobody reads, those of integrations and of synthetic actions
apart. -/
def unreadViolations (v : View) : List Violation :=
  let excused := v.integrationOutputs.members ++ v.executorManagedKeys
  (v.mutation.actions.filter fun a => !a.isSynthetic).flatMap fun a =>
    (a.mutatedKeys.members.filter fun key =>
      !excused.contains key && !v.isConsumed key a.id).map (.unreadWrite a.id)

end IntentGraph.View
