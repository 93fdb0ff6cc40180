import IntentGraph.Key.FilterAlias
import IntentGraph.Normalization.Revision

/-!
# Renaming of filter keys

Every ad-hoc spelling of a filter key that a document mentions anywhere is
replaced by the filter key that is meant, everywhere: in state maps, properties,
data sources, events, configurations, steps, triggers, inputs and templates.
Renames are carried out one after the other, in ascending order of the old keys;
in a map the entry of the new key wins over that of an old one.
-/

namespace IntentGraph

/-! ## One rename -/

/-- A key to be replaced by another. -/
structure KeyRename where
  old : String
  new : String
  deriving DecidableEq

namespace KeyRename

/-- The key that stands for a key. -/
def onKey (r : KeyRename) (key : String) : String :=
  if key = r.old then r.new else key

/-- The map with the old key renamed; an entry of the new key is kept. -/
def onMap (r : KeyRename) (fields : Fields) : Fields :=
  match fields.get? r.old with
  | none => fields
  | some value =>
    let rest := fields.erase r.old
    -- the entry that was spelled right from the start counts
    if Fields.contains rest r.new then rest else Fields.insert r.new value rest

/-- The value of which a text is taken as a key. -/
def onKeyValue (r : KeyRename) : Json → Json
  | .string s => .string (r.onKey s)
  | value => value

/-- The value of which an object is taken as a map by keys. -/
def onMapValue (r : KeyRename) : Json → Json
  | .object fields => .object (r.onMap fields)
  | value => value

/-- The value with its templates renamed. -/
def onTemplates (r : KeyRename) (value : Json) : Json :=
  Template.renameIn r.old r.new value

/-- The map with the templates of all its values renamed. -/
def onPayload (r : KeyRename) (fields : Fields) : Fields :=
  fields.mapValues fun _ value => r.onTemplates value

/-- The data source with its key renamed. -/
def onDataSource (r : KeyRename) : DataSource → DataSource
  | .state key => .state (r.onKey key)
  | .derived source expr => .derived (r.onKey source) expr
  | .literal value => .literal value
  | .unknown raw => .unknown raw

/-- The event with its key and its templates renamed. -/
def onEvent (r : KeyRename) (e : ComponentEvent) : ComponentEvent :=
  { e with
    stateUpdate := e.stateUpdate.map r.onKey, args := r.onPayload e.args }

/-- The component with its keys and templates renamed. -/
def onComponent (r : KeyRename) (c : Component) : Component :=
  { c with
    properties := c.properties.mapValues fun name value =>
      r.onTemplates
        (if Component.bindingProperties.contains name
          then r.onKeyValue value else value)
    dataSource := c.dataSource.map r.onDataSource
    events := c.events.map r.onEvent }

/-- The entries of a configuration that hold a key. -/
def keyEntries : List String :=
  [ConfigKey.assignTo, ConfigKey.stateKey, ConfigKey.origin, ConfigKey.source,
    ConfigKey.target]

/-- The configuration with its keys and templates renamed. -/
def onConfig (r : KeyRename) (config : Fields) : Fields :=
  config.mapValues fun name value =>
    r.onTemplates
      (if keyEntries.contains name then r.onKeyValue value
       else if name = ConfigKey.updates then r.onMapValue value else value)

/-- The step with its keys and templates renamed. -/
def onStep (r : KeyRename) : Step → Step
  | .stateMutation key value source =>
    .stateMutation (r.onKey key) (value.map r.onTemplates) (source.map r.onKey)
  | .integrationCall capability params =>
    .integrationCall capability (r.onPayload params)
  | .navigate page => .navigate page
  | .emit event => .emit event
  | .unknown raw => .unknown raw

/-- The trigger with its key renamed. -/
def onTrigger (r : KeyRename) : Trigger → Trigger
  | .stateChange key => .stateChange (r.onKey key)
  | trigger => trigger

/-- The action with its keys and templates renamed. -/
def onAction (r : KeyRename) (a : Action) : Action :=
  { a with
    config := r.onConfig a.config
    steps := a.steps.map r.onStep
    triggeredBy := a.triggeredBy.map r.onTrigger
    inputs := a.inputs.map fun keys => keys.map r.onKey }

/-- The rename in every part of a document. -/
def revision (r : KeyRename) : Revision :=
  ⟨r.onAction, r.onComponent, id, r.onMap⟩

/-- The record of a rename. -/
def record (r : KeyRename) : AuditRecord :=
  ⟨.normalize, none, .canonicalizeFilterKey, "state key '" ++ r.old ++ "' -> '"
    ++ r.new ++ "'"⟩

end KeyRename

/-! ## All renames -/

/-- The keys that a component mentions. -/
def Component.mentionedKeys (c : Component) : List String :=
  c.readKeys.members ++ c.stateUpdates

/-- The keys that an action mentions. -/
def Action.mentionedKeys (a : Action) : List String :=
  a.mutatedKeys.members ++ a.readKeys

/-- The keys that a document mentions, in the mutation and in the snapshot. -/
def IntentDocument.mentionedKeys (d : IntentDocument) : KeySet :=
  let prior := d.prior.getD .empty
  KeySet.ofList (Fields.keys d.mutation.state
    ++ d.mutation.components.flatMap Component.mentionedKeys
    ++ d.mutation.actions.flatMap Action.mentionedKeys
    ++ Fields.keys prior.state
    ++ prior.components.flatMap Component.mentionedKeys
    ++ prior.actions.flatMap Action.mentionedKeys)

/-- The renames of a document, in ascending order of the old keys. -/
def IntentDocument.filterRenames (d : IntentDocument) : List KeyRename :=
  d.mentionedKeys.members.filterMap fun key =>
    (Key.filterAlias? key).map (⟨key, ·⟩)

/-- The document with its filter keys renamed. -/
def IntentDocument.withFilterKeys (d : IntentDocument) : IntentDocument :=
  d.filterRenames.foldl (fun d r => r.revision.onDocument d) d

end IntentGraph
