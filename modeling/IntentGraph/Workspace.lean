import IntentGraph.Compilation

/-!
# Workspaces

A document in the making: it is edited, taken through single stages, and
compiled. A workspace holds the document, the settings, the records of all that
its stages rewrote, and the last analysis that was asked for, which may be out
of date.
-/

namespace IntentGraph

/-- A document in the making. -/
structure Workspace where
  document : IntentDocument
  config : Configuration
  log : AuditLog
  analysis : Option Reachability
  deriving DecidableEq

namespace Workspace

/-- A workspace that nothing was done in. -/
def start (config : Configuration) : Workspace :=
  ⟨.empty .create, config, [], none⟩

/-! ## Editing -/

/-- The workspace with its mutation changed. -/
def edit (w : Workspace) (change : Mutation → Mutation) : Workspace :=
  { w with document := { w.document with
    mutation := change w.document.mutation } }

/-- The workspace with a snapshot that its mutation applies to, or none. -/
def setPrior (w : Workspace) (prior : Option Snapshot) : Workspace :=
  { w with document := { w.document with prior } }

/-- Adds an action. -/
def addAction (w : Workspace) (a : Action) : Workspace :=
  w.edit fun m => { m with actionsAdded := m.actionsAdded ++ [a] }

/-- Adds an action among the updated ones. -/
def updateAction (w : Workspace) (a : Action) : Workspace :=
  w.edit fun m => { m with actionsUpdated := m.actionsUpdated ++ [a] }

/-- Adds a component. -/
def addComponent (w : Workspace) (c : Component) : Workspace :=
  w.edit fun m => { m with componentsAdded := m.componentsAdded ++ [c] }

/-- Adds a page. -/
def addPage (w : Workspace) (p : Page) : Workspace :=
  w.edit fun m => { m with pagesAdded := m.pagesAdded ++ [p] }

/-- Sets the initial value of a key. -/
def setState (w : Workspace) (key : String) (value : Json) : Workspace :=
  w.edit fun m => { m with stateAdded := m.stateAdded.insert key value }

/-- Adds a trigger to the first action of an id, if there is one. -/
def addTrigger? (w : Workspace) (id : String) (trigger : Trigger) :
    Option Workspace :=
  let add (a : Action) : Action :=
    { a with triggeredBy := a.triggeredBy ++ [trigger] }
  (w.document.mutation.modifyAction? id add).map fun m => w.edit fun _ => m

/-! ## Stages -/

/-- Normalizes the document; the records made are given too. -/
def normalize (w : Workspace) : Workspace × AuditLog :=
  let (document, records) := w.document.normalize w.config.normalize
  ({ w with document, log := w.log ++ records }, records)

/-- Analyzes the document, and remembers the outcome. -/
def analyze (w : Workspace) : Workspace × Reachability :=
  ({ w with analysis := some w.document.reachability }, w.document.reachability)

/-- The analysis that a repair relies on: the one remembered if it may be out of
date, else a fresh one. -/
def analysisFor (w : Workspace) (mayBeStale : Bool) : Reachability :=
  if mayBeStale then w.analysis.getD w.document.reachability
    else w.document.reachability

/-- Repairs the document; the records made are given too. -/
def repair (w : Workspace) (mayBeStale : Bool) : Workspace × AuditLog :=
  let (document, records) :=
    w.document.repair w.config (w.analysisFor mayBeStale)
  ({ w with document, log := w.log ++ records }, records)

/-- Compiles the document. The compiled document takes the place of the one
before; the records of a compilation are its own. -/
def compile (w : Workspace) : Except Rejection (Workspace × Compilation) :=
  (w.document.compile w.config).map fun c =>
    ({ w with document := c.document }, c)

end Workspace

end IntentGraph
