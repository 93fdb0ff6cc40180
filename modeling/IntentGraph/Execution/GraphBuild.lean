import IntentGraph.Audit
import IntentGraph.Configuration
import IntentGraph.Execution.TopologicalOrder
import IntentGraph.View

/-!
# Building the execution graph

The execution graph has a root and a node for every action of the mutation. An
edge leads from an action to every action that waits for a key it writes, and
from the root to every action that the runtime starts. The nodes stand in
topological order, or in document order when the edges between actions form a
cycle, which is a diagnostic.

A call to an integration keeps its type only if its capability resolves to one
with a provider; otherwise it degrades to the emission of an event, which is a
diagnostic too.
-/

namespace IntentGraph

/-! ## Nodes -/

/-- Why a call to an integration degrades. -/
inductive Degradation where
  | noCapability (action : String)
  | markedEphemeral (action : String)
  | ephemeralCapability (capability : String)
  | unresolved (capability : String)
  deriving DecidableEq

/-- The wording of the reason why a call degrades. -/
def Degradation.message : Degradation → String
  | .noCapability action =>
    "integration_call '" ++ action ++ "' names no capability"
  | .markedEphemeral action =>
    "integration_call '" ++ action ++ "' is marked ephemeral"
  | .ephemeralCapability capability =>
    "capability '" ++ capability ++ "' is ephemeral"
  | .unresolved capability =>
    "capability '" ++ capability ++ "' does not resolve"

/-- The capability that a call is routed to, or why it degrades. -/
def routeCall (catalog : Catalog) (a : Action) :
    Except Degradation Capability :=
  match a.capability? with
  | none => .error (.noCapability a.id)
  | some id =>
    if a.isEphemeral then .error (.markedEphemeral a.id)
    else match catalog.resolve? id with
      | none => .error (.unresolved id)
      | some capability =>
        if capability.ephemeral then .error (.ephemeralCapability id)
          else .ok capability

/-- The parameters of every node of an action: its configuration and its
kind. -/
def nodeParams (a : Action) : Fields :=
  a.config.insert "actionKind" (.string a.kind.name)

/-- The node of an action. -/
def nodeOf (catalog : Catalog) (a : Action) : ExecutionNode :=
  match a.kind with
  | .integrationCall =>
    match routeCall catalog a with
    | .ok capability =>
      ⟨a.id, .integrationCall,
        match capability.provider with
        | some provider =>
          Fields.insert "provider" (.string provider) (nodeParams a)
        | none => nodeParams a⟩
    | .error _ =>
      ⟨a.id, .emitEvent,
        Fields.insert "degradedFrom" (.string a.kind.name) (nodeParams a)⟩
  | .internal | .workflow => ⟨a.id, .transform, nodeParams a⟩
  | .navigation | .unknown _ => ⟨a.id, .emitEvent, nodeParams a⟩

/-- The diagnostic of a call that degrades. -/
def degradation? (catalog : Catalog) (a : Action) : Option Diagnostic :=
  match a.kind, routeCall catalog a with
  | .integrationCall, .error reason =>
    some ⟨.graph, "degraded_integration", some a.id, reason.message⟩
  | _, _ => none

/-- The root. -/
def rootNode : ExecutionNode :=
  ⟨ExecutionGraph.rootId, .emitEvent, [("synthetic", .bool true)]⟩

/-! ## Edges -/

/-- The positions of the actions that write a key. -/
def writersOf (actions : List Action) (key : String) : List Nat :=
  (List.range actions.length).filter fun i =>
    (actions[i]?.map fun a => a.mutatedKeys.contains key).getD false

/-- The edges between actions, by position: listener by listener, then by the
keys it waits for, then by the actions that write them; each once. -/
def stateEdges (actions : List Action) : List (Nat × Nat) :=
  distinctBy id ((List.range actions.length).flatMap fun target =>
    ((actions[target]?.map Action.watchedKeys).getD []).flatMap fun key =>
      (writersOf actions key).map (·, target))

/-- Whether the runtime starts an action, by a trigger of its own or by a
lifecycle event of a page. -/
def startsAtRoot (v : View) (a : Action) : Bool :=
  (v.pageEvents.any fun e => Lifecycle.isEvent e.kind && e.actionId = a.id)
    || a.triggeredBy.any fun
      | .lifecycle _ | .internal _ => true
      | _ => false

/-! ## Graphs -/

/-- A graph that was built, and its diagnostics. -/
structure GraphBuild where
  graph : ExecutionGraph
  diagnostics : List Diagnostic
  deriving DecidableEq

/-- The diagnostic of a cycle through an action. -/
def cycleDiagnostic (id : String) : Diagnostic :=
  ⟨.graph, "trigger_cycle", some id,
    "state-change triggers through '" ++ id
      ++ "' form a cycle; nodes kept in document order"⟩

/-- A graph came out with fewer nodes than its actions need. -/
structure NodeShortage where
  actions : Nat
  nodes : Nat
  deriving DecidableEq

namespace NodeShortage

/-- The wording of a shortage. -/
def message (s : NodeShortage) : String :=
  toString s.actions ++ " actions produced " ++ toString s.nodes
    ++ " graph nodes"

end NodeShortage

/-- The positions of the actions in the order of their nodes, and the diagnostic
of a cycle. -/
def nodeOrder (actions : List Action) : List Nat × List Diagnostic :=
  match (Digraph.mk actions.length (stateEdges actions)).topologicalOrder with
  | .ok order => (order, [])
  | .error n =>
    (List.range actions.length,
      (actions[n]?.map fun a => cycleDiagnostic a.id).toList)

/-- The execution graph of a view. -/
def View.buildGraph (v : View) (catalog : Catalog) :
    Except NodeShortage GraphBuild :=
  let actions := v.mutation.actions
  if actions.isEmpty then .ok ⟨.empty, []⟩
  else
    -- the diagnostic of a cycle comes before those of the nodes
    let (order, cycle) := nodeOrder actions
    let ordered := order.filterMap (actions[·]?)
    let nodes := rootNode :: ordered.map (nodeOf catalog)
    let edges :=
      (ordered.filter (startsAtRoot v)).map
        (fun a => ⟨ExecutionGraph.rootId, a.id⟩)
      ++ (stateEdges actions).filterMap fun (source, target) => do
        return ⟨(← actions[source]?).id, (← actions[target]?).id⟩
    if nodes.length < actions.length + 1 then
      .error ⟨actions.length, nodes.length⟩
    else .ok ⟨⟨nodes, edges⟩, cycle ++ ordered.filterMap (degradation? catalog)⟩

end IntentGraph
