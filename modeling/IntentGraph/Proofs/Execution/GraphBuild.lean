import IntentGraph.Execution.GraphBuild
import IntentGraph.Proofs.Execution.TopologicalOrder
import IntentGraph.Proofs.View

/-!
# The execution graph that is built

The edges between actions lead from position to position (`stateEdges_inRange`),
so the order of the nodes is one of all positions, whether it is topological or
that of the document (`perm_nodeOrder`). A graph therefore never comes out
short: `View.buildGraph_eq` says outright which one is built, and
`View.exists_buildGraph` that it has a node for every action.
-/

namespace IntentGraph

theorem stateEdges_inRange (actions : List Action) :
    (Digraph.mk actions.length (stateEdges actions)).InRange := by
  rintro ⟨source, target⟩ he
  have hmem := mem_distinctBy_id.1 he
  obtain ⟨t, ht, he⟩ := List.mem_flatMap.1 hmem
  obtain ⟨key, _, he⟩ := List.mem_flatMap.1 he
  obtain ⟨i, hi, heq⟩ := List.mem_map.1 he
  cases heq
  exact ⟨List.mem_range.1 (List.mem_filter.1 hi).1, List.mem_range.1 ht⟩

/-- The nodes are put in an order of all positions. -/
theorem perm_nodeOrder (actions : List Action) :
    (nodeOrder actions).1.Perm (List.range actions.length) := by
  unfold nodeOrder
  split
  · next order h =>
    exact Digraph.perm_topologicalOrder (stateEdges_inRange actions) h
  · exact .refl _

theorem filterMap_range_getElem? {α : Type} (xs : List α) :
    (List.range xs.length).filterMap (xs[·]?) = xs := by
  induction xs with
  | nil => rfl
  | cons x rest ih =>
    rw [List.length_cons, List.range_succ_eq_map, List.filterMap_cons,
      List.filterMap_map]
    simpa [Function.comp_def] using ih

/-- In the order of the nodes stands every action, once. -/
theorem perm_ordered (actions : List Action) :
    ((nodeOrder actions).1.filterMap (actions[·]?)).Perm actions := by
  have h := (perm_nodeOrder actions).filterMap (actions[·]?)
  rwa [filterMap_range_getElem?] at h

/-! ## The whole graph -/

/-- The edges of the graph, with the actions in the order of their nodes. -/
def View.graphEdges (v : View) (ordered : List Action) : List Edge :=
  (ordered.filter (startsAtRoot v)).map (fun a => ⟨ExecutionGraph.rootId, a.id⟩)
    ++ (stateEdges v.mutation.actions).filterMap fun (source, target) => do
      return ⟨(← v.mutation.actions[source]?).id,
        (← v.mutation.actions[target]?).id⟩

/-- The graph of a mutation with actions. It has their nodes in order, below the
root, and the diagnostic of a cycle stands before those of the nodes. -/
theorem View.buildGraph_eq (v : View) (catalog : Catalog)
    (hne : v.mutation.actions ≠ []) :
    let ordered :=
      (nodeOrder v.mutation.actions).1.filterMap (v.mutation.actions[·]?)
    v.buildGraph catalog = .ok
      ⟨⟨rootNode :: ordered.map (nodeOf catalog), v.graphEdges ordered⟩,
        (nodeOrder v.mutation.actions).2
          ++ ordered.filterMap (degradation? catalog)⟩ := by
  intro ordered
  have henough : ¬ (rootNode :: ordered.map (nodeOf catalog)).length
      < v.mutation.actions.length + 1 := by
    rw [List.length_cons, List.length_map,
      (perm_ordered v.mutation.actions).length_eq]
    exact Nat.lt_irrefl _
  unfold View.buildGraph
  rw [if_neg (by simpa using hne)]
  exact if_neg henough

/-- Without actions the graph is empty. -/
theorem View.buildGraph_of_nil {v : View} (catalog : Catalog)
    (h : v.mutation.actions = []) :
    v.buildGraph catalog = .ok ⟨.empty, []⟩ := by
  simp [View.buildGraph, h]

/-! ## Nodes -/

/-- A graph is always built. It has the root and a node for every action, or
nothing at all when there is no action. -/
theorem View.exists_buildGraph (v : View) (catalog : Catalog) :
    ∃ (built : GraphBuild) (ordered : List Action),
      v.buildGraph catalog = .ok built ∧ ordered.Perm v.mutation.actions
      ∧ built.graph.nodes =
        if v.mutation.actions = [] then []
          else rootNode :: ordered.map (nodeOf catalog) := by
  by_cases hempty : v.mutation.actions = []
  · refine ⟨_, [], v.buildGraph_of_nil catalog hempty, ?_, ?_⟩
    · rw [hempty]
    · rw [if_pos hempty]
      rfl
  · exact ⟨_, _, v.buildGraph_eq catalog hempty, perm_ordered _,
      (if_neg hempty).symm⟩

theorem id_nodeOf (catalog : Catalog) (a : Action) :
    (nodeOf catalog a).id = a.id := by
  unfold nodeOf
  split
  · split <;> rfl
  all_goals rfl

/-- The nodes of a graph that is built. -/
theorem View.exists_nodes_eq {v : View} {catalog : Catalog} {built : GraphBuild}
    (h : v.buildGraph catalog = .ok built) :
    ∃ ordered : List Action, ordered.Perm v.mutation.actions
      ∧ built.graph.nodes =
        if v.mutation.actions = [] then []
          else rootNode :: ordered.map (nodeOf catalog) := by
  obtain ⟨built', ordered, h', hperm, hnodes⟩ := v.exists_buildGraph catalog
  rw [h] at h'
  cases h'
  exact ⟨ordered, hperm, hnodes⟩

/-- The nodes have the id of the root and those of the actions. -/
theorem View.perm_ids_nodes {v : View} {catalog : Catalog} {built : GraphBuild}
    (h : v.buildGraph catalog = .ok built) (hne : v.mutation.actions ≠ []) :
    (built.graph.nodes.map (·.id)).Perm
      (ExecutionGraph.rootId :: v.mutation.actions.map (·.id)) := by
  obtain ⟨ordered, hperm, hnodes⟩ := exists_nodes_eq h
  have hids : (ordered.map (nodeOf catalog)).map (·.id)
      = ordered.map (·.id) := by
    rw [List.map_map]
    exact List.map_congr_left fun a _ => id_nodeOf catalog a
  rw [hnodes, if_neg hne, List.map_cons, hids]
  exact (hperm.map _).cons _

/-- A graph has one node more than there are actions. -/
theorem View.length_nodes {v : View} {catalog : Catalog} {built : GraphBuild}
    (h : v.buildGraph catalog = .ok built) :
    built.graph.nodes.length =
      if v.mutation.actionCount = 0 then 0 else v.mutation.actionCount + 1 := by
  obtain ⟨ordered, hperm, hnodes⟩ := exists_nodes_eq h
  have hcount : v.mutation.actions.length = v.mutation.actionCount := by
    rw [Mutation.actions, List.length_append, Mutation.actionCount]
  rw [hnodes, ← hcount]
  by_cases hempty : v.mutation.actions = []
  · simp [hempty]
  · rw [if_neg hempty, if_neg (by simpa using hempty), List.length_cons,
      List.length_map, hperm.length_eq]

end IntentGraph
