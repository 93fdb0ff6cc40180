import IntentGraph.Proofs.Execution.Cycle
import IntentGraph.Proofs.Execution.GraphBuild

/-!
# The order of the nodes

One action feeds another when it writes a key that the other waits for. The
edges between actions are exactly the pairs of positions that feed one another
(`edge_stateEdges_iff`), so what the search says of its graph is said of the
actions.

* `nodeOrder_eq_of_acyclic`: without a cycle of feeding the nodes stand in an
  order in which each action comes before those that it feeds;
* `nodeOrder_eq_of_cyclic`: with one they keep document order, and one
  diagnostic names an action on a cycle;
* `View.exists_cycleCode_iff`: a graph is built with a diagnostic of a cycle iff
  there is one;
* `View.buildGraph_order`: both orders, of the graph that is built.
-/

namespace IntentGraph

open Relation

/-! ## Feeding -/

/-- The action at one position writes a key that the action at another position
waits for. -/
def Feeds (actions : List Action) (i j : Nat) : Prop :=
  ∃ a b, actions[i]? = some a ∧ actions[j]? = some b
    ∧ ∃ key ∈ a.mutatedKeys, key ∈ b.watchedKeys

variable {actions : List Action}

theorem mem_writersOf {key : String} {i : Nat} :
    i ∈ writersOf actions key ↔ ∃ a, actions[i]? = some a
      ∧ key ∈ a.mutatedKeys := by
  rw [writersOf, List.mem_filter, List.mem_range]
  cases ha : actions[i]? with
  | none => simp
  | some a =>
    have hi : i < actions.length := (List.getElem?_eq_some_iff.1 ha).1
    simp [hi]

theorem mem_stateEdges {i j : Nat} :
    (i, j) ∈ stateEdges actions ↔ Feeds actions i j := by
  rw [stateEdges, mem_distinctBy_id]
  simp only [List.mem_flatMap, List.mem_range, List.mem_map, Prod.mk.injEq]
  constructor
  · rintro ⟨t, ht, key, hkey, i', hi', rfl, rfl⟩
    obtain ⟨a, ha, hwrites⟩ := mem_writersOf.1 hi'
    rw [List.getElem?_eq_getElem ht] at hkey
    exact ⟨a, actions[t], ha, List.getElem?_eq_getElem ht, key, hwrites, hkey⟩
  · rintro ⟨a, b, ha, hb, key, hwrites, hwaits⟩
    refine ⟨j, (List.getElem?_eq_some_iff.1 hb).1, key, ?_, i, ?_, rfl, rfl⟩
    · rwa [hb]
    · exact mem_writersOf.2 ⟨a, ha, hwrites⟩

/-- The edges of the graph of actions are the pairs of positions that feed one
another. -/
theorem edge_stateEdges_iff :
    (Digraph.mk actions.length (stateEdges actions)).Edge = Feeds actions := by
  funext i j
  exact propext mem_stateEdges

/-- What lies on a cycle of feeding is an action. -/
theorem exists_getElem?_of_cycle {n : Nat} (h : TransGen (Feeds actions) n n) :
    ∃ a, actions[n]? = some a := by
  obtain ⟨_, ⟨a, _, ha, _⟩, _⟩ := TransGen.head'_iff.1 h
  exact ⟨a, ha⟩

/-! ## Orders of the nodes -/

theorem nodeOrder_eq_of_acyclic (h : ∀ i, ¬ TransGen (Feeds actions) i i) :
    ∃ order : List Nat, nodeOrder actions = (order, [])
      ∧ order.Perm (List.range actions.length)
      ∧ ∀ i j, Feeds actions i j → order.idxOf i < order.idxOf j := by
  have hrange := stateEdges_inRange actions
  rw [← edge_stateEdges_iff] at h
  obtain ⟨order, horder⟩ := (Digraph.exists_topologicalOrder_iff hrange).2 h
  have heq : nodeOrder actions = (order, []) := by rw [nodeOrder, horder]
  refine ⟨order, heq, ?_, fun i j hfeeds => ?_⟩
  · have hperm := perm_nodeOrder actions
    rwa [heq] at hperm
  · rw [← edge_stateEdges_iff] at hfeeds
    exact Digraph.idxOf_lt_of_topologicalOrder hrange horder hfeeds

theorem nodeOrder_eq_of_cyclic {i : Nat} (h : TransGen (Feeds actions) i i) :
    ∃ n a, actions[n]? = some a ∧ TransGen (Feeds actions) n n
      ∧ nodeOrder actions
        = (List.range actions.length, [cycleDiagnostic a.id]) := by
  have hrange := stateEdges_inRange actions
  cases horder :
    (Digraph.mk actions.length (stateEdges actions)).topologicalOrder with
  | ok order =>
    rw [← edge_stateEdges_iff] at h
    exact absurd h
      ((Digraph.exists_topologicalOrder_iff hrange).1 ⟨order, horder⟩ i)
  | error n =>
    have hcycle := Digraph.transGen_of_topologicalOrder hrange horder
    rw [edge_stateEdges_iff] at hcycle
    obtain ⟨a, ha⟩ := exists_getElem?_of_cycle hcycle
    exact ⟨n, a, ha, hcycle, by simp [nodeOrder, horder, ha]⟩

/-! ## The graph -/

/-- The code of a diagnostic of a cycle. -/
def cycleCode : String := "trigger_cycle"

theorem code_cycleDiagnostic (id : String) :
    (cycleDiagnostic id).code = cycleCode := rfl

/-- A call that degrades is no cycle. -/
theorem code_ne_of_degradation? {catalog : Catalog} {a : Action}
    {d : Diagnostic} (h : degradation? catalog a = some d) :
    d.code ≠ cycleCode := by
  unfold degradation? at h
  split at h
  · cases h
    show "degraded_integration" ≠ cycleCode
    decide
  · cases h

/-- The graph of a mutation with actions has their nodes in order, below the
root, and the diagnostic of a cycle stands before those of the nodes. -/
theorem View.exists_buildGraph_eq (v : View) (catalog : Catalog)
    (hne : v.mutation.actions ≠ []) {order : List Nat} {cycle : List Diagnostic}
    (horder : nodeOrder v.mutation.actions = (order, cycle)) :
    let ordered := order.filterMap (v.mutation.actions[·]?)
    ∃ edges, v.buildGraph catalog = .ok
      ⟨⟨rootNode :: ordered.map (nodeOf catalog), edges⟩,
        cycle ++ ordered.filterMap (degradation? catalog)⟩ := by
  have hbuilt := v.buildGraph_eq catalog hne
  rw [horder] at hbuilt
  exact ⟨_, hbuilt⟩

/-- The nodes add no diagnostic of a cycle. -/
theorem filter_cycleCode (catalog : Catalog) (ordered : List Action)
    (cycle : List Diagnostic) :
    (cycle ++ ordered.filterMap (degradation? catalog)).filter
      (·.code = cycleCode)
      = cycle.filter (·.code = cycleCode) := by
  have hnone :
      (ordered.filterMap (degradation? catalog)).filter
        (·.code = cycleCode) = [] := by
    rw [List.filter_eq_nil_iff]
    intro d hd
    obtain ⟨a, _, ha⟩ := List.mem_filterMap.1 hd
    simpa using code_ne_of_degradation? ha
  rw [List.filter_append, hnone, List.append_nil]

/-- A cycle of feeding is reported, and nothing else is reported as one. -/
theorem View.exists_cycleCode_iff {v : View} {catalog : Catalog}
    {built : GraphBuild} (h : v.buildGraph catalog = .ok built) :
    (∃ d ∈ built.diagnostics, d.code = cycleCode)
      ↔ ∃ i, TransGen (Feeds v.mutation.actions) i i := by
  by_cases hempty : v.mutation.actions = []
  · rw [v.buildGraph_of_nil catalog hempty] at h
    cases h
    constructor
    · rintro ⟨d, hd, _⟩
      cases hd
    · rintro ⟨i, hcycle⟩
      obtain ⟨a, ha⟩ := exists_getElem?_of_cycle hcycle
      simp [hempty] at ha
  · constructor
    · rintro ⟨d, hd, hcode⟩
      -- without a cycle the diagnostics are those of degraded calls
      by_contra hnone
      obtain ⟨order, horder, _⟩ :=
        nodeOrder_eq_of_acyclic fun i hi => hnone ⟨i, hi⟩
      obtain ⟨edges, hbuilt⟩ := v.exists_buildGraph_eq catalog hempty horder
      rw [h] at hbuilt
      cases hbuilt
      obtain ⟨a, _, ha⟩ := List.mem_filterMap.1 hd
      exact code_ne_of_degradation? ha hcode
    · rintro ⟨i, hcycle⟩
      obtain ⟨_, a, _, _, horder⟩ := nodeOrder_eq_of_cyclic hcycle
      obtain ⟨edges, hbuilt⟩ := v.exists_buildGraph_eq catalog hempty horder
      rw [h] at hbuilt
      cases hbuilt
      exact ⟨cycleDiagnostic a.id, List.mem_cons_self,
        code_cycleDiagnostic a.id⟩

/-- The order of the nodes and the detection of cycles are exact. Without a
cycle of feeding there is no diagnostic of one, and the actions stand in an
order in which each comes before those that it feeds. With one, there is exactly
one diagnostic of a cycle, it names an action on a cycle, and the actions stand
in document order. -/
theorem View.buildGraph_order (v : View) (catalog : Catalog)
    (hne : v.mutation.actions ≠ []) :
    let actions := v.mutation.actions
    ∃ built, v.buildGraph catalog = .ok built
      ∧ ((∀ i, ¬ TransGen (Feeds actions) i i) →
        (∀ d ∈ built.diagnostics, d.code ≠ cycleCode)
          ∧ ∃ order : List Nat, order.Perm (List.range actions.length)
            ∧ (∀ i j, Feeds actions i j → order.idxOf i < order.idxOf j)
            ∧ built.graph.nodes
              = rootNode :: (order.filterMap (actions[·]?)).map
                (nodeOf catalog))
      ∧ ((∃ i, TransGen (Feeds actions) i i) →
        (∃ n a, actions[n]? = some a ∧ TransGen (Feeds actions) n n
          ∧ built.diagnostics.filter (·.code = cycleCode)
            = [cycleDiagnostic a.id])
          ∧ built.graph.nodes = rootNode :: actions.map (nodeOf catalog)) := by
  intro actions
  by_cases hcyclic : ∃ i, TransGen (Feeds actions) i i
  · obtain ⟨i, hi⟩ := hcyclic
    -- a cycle: the order is that of the document
    obtain ⟨n, a, ha, hcycle, horder⟩ := nodeOrder_eq_of_cyclic hi
    obtain ⟨edges, hbuilt⟩ := v.exists_buildGraph_eq catalog hne horder
    refine ⟨_, hbuilt, fun hacyclic => absurd hi (hacyclic i),
      fun _ => ⟨?_, ?_⟩⟩
    · refine ⟨n, a, ha, hcycle, ?_⟩
      rw [filter_cycleCode]
      simp [code_cycleDiagnostic]
    · rw [filterMap_range_getElem?]
  · -- no cycle: the order is a topological one
    have hacyclic : ∀ i, ¬ TransGen (Feeds actions) i i :=
      fun i hi => hcyclic ⟨i, hi⟩
    obtain ⟨order, horder, hperm, hforward⟩ := nodeOrder_eq_of_acyclic hacyclic
    obtain ⟨edges, hbuilt⟩ := v.exists_buildGraph_eq catalog hne horder
    refine ⟨_, hbuilt,
      fun _ => ⟨fun d hd hcode => ?_, order, hperm, hforward, rfl⟩,
      fun h => absurd h hcyclic⟩
    have hnone := filter_cycleCode catalog (order.filterMap (actions[·]?)) []
    exact List.filter_eq_nil_iff.1 hnone d hd (by simpa using hcode)

/-- Two actions that feed each other, and one that is fed by the first. -/
def pingPong : View where
  mutation := { Mutation.empty with
    actionsAdded := [
      { Action.bare "show" .internal with
        triggeredBy := [.stateChange "ball"] },
      { Action.bare "ping" .internal with
        config := [(ConfigKey.stateKey, .string "ball")]
        triggeredBy := [.stateChange "bat"] },
      { Action.bare "pong" .internal with
        config := [(ConfigKey.stateKey, .string "bat")]
        triggeredBy := [.stateChange "ball"] }] }
  prior := none

/-- The loop of two is reported once, at an action on it, and the nodes keep
document order. -/
theorem buildGraph_order_pingPong :
    pingPong.mutation.actions ≠ [] ∧ ∃ built, pingPong.buildGraph [] = .ok built
      ∧ (∃ n a, pingPong.mutation.actions[n]? = some a
        ∧ TransGen (Feeds pingPong.mutation.actions) n n
        ∧ built.diagnostics.filter (·.code = cycleCode)
          = [cycleDiagnostic a.id])
      ∧ built.graph.nodes.map (·.id)
        = [ExecutionGraph.rootId, "show", "ping", "pong"] := by
  have hne : pingPong.mutation.actions ≠ [] := by decide
  have hping : Feeds pingPong.mutation.actions 1 2 :=
    ⟨_, _, rfl, rfl, "ball", by decide +kernel, by decide +kernel⟩
  have hpong : Feeds pingPong.mutation.actions 2 1 :=
    ⟨_, _, rfl, rfl, "bat", by decide +kernel, by decide +kernel⟩
  obtain ⟨built, hbuilt, _, hcyclic⟩ := pingPong.buildGraph_order [] hne
  obtain ⟨hdiagnostic, hnodes⟩ := hcyclic ⟨1, .tail (.single hping) hpong⟩
  refine ⟨hne, built, hbuilt, hdiagnostic, ?_⟩
  rw [hnodes]
  decide +kernel

end IntentGraph
