import IntentGraph.Audit
import IntentGraph.Configuration
import IntentGraph.Document.IntentDocument

/-!
# Revisions

A revision changes every action, component, page and state map of a document
on its own, those of the mutation and those of the snapshot alike. The passes
of normalization are revisions; the three that spell actions stand here.
-/

namespace IntentGraph

/-- What becomes of each part of a document. -/
structure Revision where
  action : Action → Action
  component : Component → Component
  page : Page → Page
  state : Fields → Fields

namespace Revision

/-- The revision that changes nothing. -/
def identity : Revision := ⟨id, id, id, id⟩

/-- The mutation with every part revised. -/
def onMutation (r : Revision) (m : Mutation) : Mutation where
  pagesAdded := m.pagesAdded.map r.page
  componentsAdded := m.componentsAdded.map r.component
  actionsAdded := m.actionsAdded.map r.action
  stateAdded := r.state m.stateAdded
  pagesUpdated := m.pagesUpdated.map r.page
  componentsUpdated := m.componentsUpdated.map r.component
  actionsUpdated := m.actionsUpdated.map r.action
  stateUpdated := r.state m.stateUpdated
  containerPropsUpdated := m.containerPropsUpdated

/-- The snapshot with every part revised. -/
def onSnapshot (r : Revision) (s : Snapshot) : Snapshot where
  pages := s.pages.map r.page
  components := s.components.map r.component
  actions := s.actions.map r.action
  state := r.state s.state

/-- The document with every part revised. -/
def onDocument (r : Revision) (d : IntentDocument) : IntentDocument :=
  { d with
    mutation := r.onMutation d.mutation, prior := d.prior.map r.onSnapshot }

end Revision

/-!
## Spelling of actions

Three passes over the actions of a document: ids get their canonical spelling,
wherever an event names them too; kinds that are no longer in use become
`internal`; and a source with a target in the configuration becomes a step that
copies the one to the other.
-/

/-! ### Ids -/

namespace Action

/-- The action with its id in canonical spelling. -/
def withCanonicalId (a : Action) : Action := { a with id := canonicalId a.id }

/-- The record of an id that was not in canonical spelling. -/
def canonicalIdRecord? (a : Action) : Option AuditRecord :=
  if canonicalId a.id = a.id then none
  else some ⟨.normalize, some (canonicalId a.id), .canonicalizeId,
    "'" ++ a.id ++ "' -> '" ++ canonicalId a.id ++ "'"⟩

end Action

/-- Ids of actions and references to them in canonical spelling. -/
def canonicalIds : Revision where
  action := Action.withCanonicalId
  component c := { c with events := c.events.map fun e =>
    { e with actionId := e.actionId.map canonicalId } }
  page p := { p with
    events := p.events.map fun e => { e with
      actionId := canonicalId e.actionId } }
  state := id

/-! ### Kinds -/

namespace Action

/-- The spelling of the action's kind if it is to be migrated. -/
def legacyKind? (settings : NormalizeSettings) (a : Action) : Option String :=
  a.kind.unknown?.filter settings.isLegacyKind

/-- The action with a kind that is to be migrated replaced, and its spelling
kept in the configuration. -/
def withMigratedKind (settings : NormalizeSettings) (a : Action) : Action :=
  match a.legacyKind? settings with
  | none => a
  | some kind =>
    let slot :=
      if a.config.contains ConfigKey.semantic then ConfigKey.legacyKind
        else ConfigKey.semantic
    { a with kind := .internal, config := a.config.insert slot (.string kind) }

/-- The record of a kind that is migrated. -/
def migratedKindRecord? (settings : NormalizeSettings) (a : Action) :
    Option AuditRecord :=
  (a.legacyKind? settings).map fun kind =>
    ⟨.normalize, some a.id, .migrateLegacyKind,
      "kind '" ++ kind ++ "' -> 'internal'"⟩

end Action

/-- Kinds that are no longer in use replaced. -/
def migratedKinds (settings : NormalizeSettings) : Revision :=
  { Revision.identity with action := Action.withMigratedKind settings }

/-! ### Sources and targets -/

namespace Action

/-- The source and the target of the configuration, if it has both. -/
def sourceTarget? (a : Action) : Option (String × String) := do
  let source ← a.configText? ConfigKey.source
  let target ← a.configText? ConfigKey.target
  return (source, target)

/-- The action with a step in place of a source and a target. -/
def withCopyStep (a : Action) : Action :=
  match a.sourceTarget? with
  | none => a
  | some (source, target) =>
    { a with
      config := (a.config.erase ConfigKey.source).erase ConfigKey.target
      steps := a.steps ++ [Step.copy target source] }

/-- The record of a source and a target that become a step. -/
def copyStepRecord? (a : Action) : Option AuditRecord :=
  a.sourceTarget?.map fun (source, target) =>
    ⟨.normalize, some a.id, .lowerSourceTarget,
      "'" ++ source ++ "' -> '" ++ target
        ++ "' lowered to a state_mutation step"⟩

end Action

/-- Sources and targets replaced by steps. -/
def loweredCopies : Revision := { Revision.identity with
  action := Action.withCopyStep }

end IntentGraph
