import IntentGraph.Document.Kind
import IntentGraph.Document.Step
import IntentGraph.Document.Trigger
import IntentGraph.Key.Companion
import IntentGraph.Key.KeySet
import IntentGraph.Key.Template

/-!
# Actions

An action has an id, a kind, an open configuration, steps and triggers. What the
rest of the library asks of it is the keys it writes (`mutatedKeys`), those of
them it writes from literals (`literalWrites`), and the keys it depends on
(`readKeys`).

* A call to an integration that assigns a key also owns the key's status and
  error companions.
* An action whose kind does not write state has no mutated keys, whatever it is
  configured to do.
-/

namespace IntentGraph

/-- An action of a document. -/
structure Action where
  id : String
  kind : ActionKind
  config : Fields
  steps : List Step
  triggeredBy : List Trigger
  effectOnly : Bool
  inputs : Option (List String)
  deriving DecidableEq

/-! ## Names in the configuration of an action -/

namespace ConfigKey

def assignTo : String := "assignTo"

def stateKey : String := "stateKey"

def updates : String := "updates"

def capability : String := "capability"

def ephemeral : String := "ephemeral"

def pageId : String := "pageId"

def semantic : String := "semantic"

/-- Where the kind of a migrated action goes when its semantic is taken. -/
def legacyKind : String := "legacyKind"

def synthetic : String := "synthetic"

/-- What `synthetic` holds in an action that repair made. -/
def madeByRepair : String := "repair"

def source : String := "source"

def target : String := "target"

/-- The short name of a source. -/
def origin : String := "from"

end ConfigKey

namespace Action

/-- An action that does nothing yet. -/
def bare (id : String) (kind : ActionKind) : Action :=
  ⟨id, kind, [], [], [], false, none⟩

/-- The nonempty text at a key of the configuration. -/
def configText? (a : Action) (key : String) : Option String :=
  ((a.config.get? key).bind Json.asString?).filter (· ≠ "")

/-- The data key that the action assigns. -/
def assignedKey? (a : Action) : Option String :=
  a.configText? ConfigKey.assignTo

/-- The capability that the action calls. -/
def capability? (a : Action) : Option String :=
  a.configText? ConfigKey.capability

/-- What the action is meant for. -/
def semantic? (a : Action) : Option String := a.configText? ConfigKey.semantic

/-- Whether the action is marked to have no provider. -/
def isEphemeral (a : Action) : Bool :=
  (a.config.get? ConfigKey.ephemeral).bind Json.asBool? == some true

/-- Whether the action was made by repair. -/
def isSynthetic (a : Action) : Bool :=
  a.configText? ConfigKey.synthetic == some ConfigKey.madeByRepair

/-- Whether the action is triggered by a lifecycle event. -/
def hasLifecycleTrigger (a : Action) (event : String) : Bool :=
  a.triggeredBy.contains (.lifecycle event)

/-- The keys whose change the action waits for. -/
def watchedKeys (a : Action) : List String :=
  a.triggeredBy.filterMap Trigger.stateKey?

/-! ## Keys written -/

/-- The keys of the update map. -/
def updateKeys (a : Action) : List String :=
  match a.config.get? ConfigKey.updates with
  | some (.object updates) => Fields.keys updates
  | _ => []

/-- The key that the action assigns, with its companions if the action calls an
integration. -/
def assignedKeys (a : Action) : List String :=
  match a.assignedKey? with
  | none => []
  | some key =>
    if a.kind = .integrationCall then
      [key, Key.status key, Key.error key]
    else [key]

/-- Every key that the action writes. -/
def mutatedKeys (a : Action) : KeySet :=
  if a.kind.isMutating then
    KeySet.ofList (a.assignedKeys ++ (a.configText? ConfigKey.stateKey).toList
      ++ a.updateKeys
      ++ a.steps.filterMap Step.writtenKey?)
  else ∅

/-- Whether the assigned key is computed from another key. -/
def isDerived (a : Action) : Bool :=
  a.config.contains ConfigKey.origin || a.config.contains ConfigKey.source

/-- The keys that the action writes from a literal. -/
def literalWrites (a : Action) : KeySet :=
  KeySet.ofList ((if a.isDerived then [] else a.assignedKey?.toList)
    ++ (a.configText? ConfigKey.stateKey).toList ++ a.updateKeys
    ++ a.steps.filterMap Step.literalKey?)

/-! ## Keys read -/

/-- The keys that the configuration and the steps refer to by templates. -/
def templatedKeys (a : Action) : KeySet :=
  KeySet.ofList
    ((a.config.values ++ a.steps.flatMap Step.payloads).flatMap Template.keysOf)

/-- Every key that the action depends on. -/
def readKeys (a : Action) : KeySet :=
  KeySet.ofList (a.templatedKeys.members ++ a.inputs.getD []
    ++ (a.configText? ConfigKey.origin).toList
    ++ (a.configText? ConfigKey.source).toList
    ++ a.steps.filterMap Step.sourceKey? ++ a.watchedKeys)

/-! ## Classification -/

/-- Whether the action looks as if nobody waited for its result: by its flag,
its kind, or its id. -/
def looksEffectOnly (effectPrefixes : List String) (a : Action) : Bool :=
  a.effectOnly || a.kind = .navigation
    || effectPrefixes.any (fun start => start.toList.isPrefixOf a.id.toList)
    || Text.occursIn "navigate".toList a.id.toList

/-- The payloads of triggers and steps that were not recognized. -/
def unknownPayloads (a : Action) : List Json :=
  a.triggeredBy.filterMap Trigger.raw? ++ a.steps.filterMap Step.raw?

/-! ## Wire form -/

/-- The fields of an action. -/
def fields : List (Field Action) := [
  .required "id" decodeString fun id a => { a with id },
  .required "kind" ActionKind.decode fun kind a => { a with kind },
  .defaulted "config" decodeFields fun config a => { a with config },
  .defaulted "steps" (decodeList Step.decode) fun steps a => { a with steps },
  .defaulted "triggeredBy" Trigger.decodeMany fun triggeredBy a =>
    { a with triggeredBy },
  .defaulted "effectOnly" decodeBool fun effectOnly a => { a with effectOnly },
  .defaulted "inputs" (decodeOption (decodeList decodeString)) fun inputs a =>
    { a with inputs }]

/-- Reads an action. -/
def decode : Decoder Action :=
  decodeRecord "Action" (bare "" (.unknown "")) fields

/-- Writes an action. -/
def encode (a : Action) : Json := .record [
  Entry.always "id" (.string a.id),
  Entry.always "kind" (.string a.kind.name),
  Entry.fields "config" a.config,
  Entry.list "steps" Step.encode a.steps,
  Entry.always "triggeredBy" (.ofList Trigger.encode a.triggeredBy),
  Entry.flag "effectOnly" a.effectOnly,
  Entry.present "inputs" Json.ofStrings a.inputs]

end Action

end IntentGraph
