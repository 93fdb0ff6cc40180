import IntentGraph.Audit
import IntentGraph.Reachability
import IntentGraph.Repair.Binding
import IntentGraph.Repair.Synthesis

/-!
# Repair

The stage that makes every action reachable. It removes redundant status
setters, binds every orphan to a trigger, and adds normalizers and status
mirrors where the configuration allows it. All that it does is recorded.
-/

namespace IntentGraph

/-!
## Redundant status setters

A synthetic action that nothing can run and that writes only keys kept by the
executor is removed, and with it every event of the mutation that dispatches to
it.
-/

namespace View

/-- Whether an action is synthetic, out of reach, and writes only keys that the
executor keeps. -/
def isRedundant (v : View) (reach : Reachability) (a : Action) : Bool :=
  a.isSynthetic && !reach.isReachable a.id && !a.mutatedKeys.members.isEmpty
    && a.mutatedKeys.members.all v.executorManagedKeys.contains

/-- The ids of the redundant actions. -/
def redundantIds (v : View) (reach : Reachability) : KeySet :=
  KeySet.ofList ((v.mutation.actions.filter (v.isRedundant reach)).map (·.id))

end View

/-- The component without the events that dispatch to one of the ids. -/
def Component.dropEvents (ids : List String) (c : Component) : Component :=
  { c with events := c.events.filter fun e => !e.actionId.any ids.contains }

/-- The page without the events that run one of the ids. -/
def Page.dropEvents (ids : List String) (p : Page) : Page :=
  { p with events := p.events.filter fun e => !ids.contains e.actionId }

/-- The mutation without the actions of some ids and without the events that
name them. -/
def Mutation.removeActions (m : Mutation) (ids : List String) : Mutation :=
  { m with
    actionsAdded := m.actionsAdded.filter fun a => !ids.contains a.id
    actionsUpdated := m.actionsUpdated.filter fun a => !ids.contains a.id
    componentsAdded := m.componentsAdded.map (Component.dropEvents ids)
    componentsUpdated := m.componentsUpdated.map (Component.dropEvents ids)
    pagesAdded := m.pagesAdded.map (Page.dropEvents ids)
    pagesUpdated := m.pagesUpdated.map (Page.dropEvents ids) }

/-- The record of a removed action. -/
def removalRecord (id : String) : AuditRecord :=
  ⟨.repair, some id, .removeRedundantStatusSetter,
    "synthetic action only wrote executor-managed status/error keys"⟩

/-! ## The steps of repair -/

/-- A mutation in repair, over a snapshot, with the records left so far. -/
structure Repairing where
  mutation : Mutation
  log : AuditLog
  deriving DecidableEq

namespace Repairing

/-- The view of the mutation over a snapshot. -/
def view (r : Repairing) (prior : Option Snapshot) : View := ⟨r.mutation, prior⟩

/-- Removes the redundant status setters. -/
def removeRedundant (r : Repairing) (prior : Option Snapshot)
    (reach : Reachability) : Repairing :=
  let ids := ((r.view prior).redundantIds reach).members
  if ids.isEmpty then r
  else ⟨r.mutation.removeActions ids, r.log ++ ids.map removalRecord⟩

/-- Binds the orphans that are left once some ids are removed. -/
def bindOrphans (r : Repairing) (prior : Option Snapshot) (reach : Reachability)
    (removed : List String) (reason : String) : Repairing :=
  let plans := (r.view prior).bindingPlans reach removed
  ⟨r.mutation.bindAll prior reason plans,
    r.log ++ plans.map fun (id, b) => b.record reason id⟩

/-- Adds an action under a fresh id, made from a base. -/
def addSynthetic (r : Repairing) (prior : Option Snapshot) (base : String)
    (make : String → Action) (record : String → AuditRecord) : Repairing :=
  let id := freshId (r.view prior).actionIds base
  ⟨{ r.mutation with actionsAdded := r.mutation.actionsAdded ++ [make id] },
    r.log ++ [record id]⟩

/-- Adds the normalizers. -/
def addNormalizers (r : Repairing) (prior : Option Snapshot)
    (effectPrefixes : List String) :
    Repairing :=
  ((r.view prior).unreadOutputs effectPrefixes).foldl
    (fun r o => r.addSynthetic prior o.idBase o.normalizer o.record) r

/-- Adds the status mirrors. -/
def addMirrors (r : Repairing) (prior : Option Snapshot) : Repairing :=
  (r.view prior).mirrorPlans.foldl
    (fun r p => r.addSynthetic prior p.idBase p.mirror p.record) r

end Repairing

/-- The mutation with every defect mended that repair knows of, and the records
of what was done. -/
def View.repair (v : View) (reach : Reachability) (config : Configuration) :
    Repairing :=
  let start : Repairing := ⟨v.mutation, []⟩
  let removed := (v.redundantIds reach).members
  let bound :=
    (start.removeRedundant v.prior reach).bindOrphans v.prior reach removed
      config.repair.safetyNetReason
  let normalized :=
    if config.repair.synthesizeNormalizers then
      bound.addNormalizers v.prior config.effectOnlyPrefixes
    else bound
  if config.repair.synthesizeStatusMirrors then
    normalized.addMirrors v.prior
  else normalized

end IntentGraph
