import IntentGraph.Proofs.Execution.NodeOrder

/-!
# The edges of the execution graph

The graph is built from positions and read by ids. `View.leads_iff` says which
edges that leaves: the root leads to what the runtime starts
(`startsAtRoot_iff`), and the id of an action leads to the ids of those that
wait for a key it writes. Actions of one id share their edges.

A pair of positions is listed once, and so is a pair of ids, as long as the ids
differ from one another (`View.nodup_filterMap_stateEdges`) and from that of the
root. With these two provisos the edges are said outright:
`View.buildGraph_edges`.
-/

namespace IntentGraph

/-- An edge of the graph leads from one id to another. -/
def ExecutionGraph.Leads (g : ExecutionGraph) (i j : String) : Prop :=
  ⟨i, j⟩ ∈ g.edges

/-- The runtime starts an action for a lifecycle event of a page, or for a
lifecycle or internal trigger of its own. -/
theorem startsAtRoot_iff {v : View} {a : Action} :
    startsAtRoot v a = true ↔
      (∃ p ∈ v.pages, ∃ e ∈ p.events, Lifecycle.isEvent e.kind = true
        ∧ e.actionId = a.id)
        ∨ (∃ event, .lifecycle event ∈ a.triggeredBy)
        ∨ ∃ reason, .internal reason ∈ a.triggeredBy := by
  simp only [startsAtRoot, View.pageEvents, Bool.or_eq_true, List.any_eq_true,
    List.mem_flatMap, Bool.and_eq_true, decide_eq_true_eq]
  refine or_congr ?_ ?_
  · constructor
    · rintro ⟨e, ⟨p, hp, he⟩, hevent⟩
      exact ⟨p, hp, e, he, hevent⟩
    · rintro ⟨p, hp, e, he, hevent⟩
      exact ⟨e, ⟨p, hp, he⟩, hevent⟩
  · constructor
    · rintro ⟨t, ht, hstarts⟩
      cases t with
      | lifecycle event => exact .inl ⟨event, ht⟩
      | internal reason => exact .inr ⟨reason, ht⟩
      | stateChange key => cases hstarts
      | componentEvent component event => cases hstarts
      | unknown raw => cases hstarts
    · rintro (⟨event, ht⟩ | ⟨reason, ht⟩)
      · exact ⟨_, ht, rfl⟩
      · exact ⟨_, ht, rfl⟩

namespace View

variable {v : View} {catalog : Catalog} {built : GraphBuild}

/-- An edge between actions leads from an action to one that waits for a key it
writes. -/
theorem mem_filterMap_stateEdges {i j : String} :
    ⟨i, j⟩ ∈ ((stateEdges v.mutation.actions).filterMap
      fun (source, target) => do
        return Edge.mk (← v.mutation.actions[source]?).id
          (← v.mutation.actions[target]?).id)
      ↔ ∃ a ∈ v.mutation.actions, ∃ b ∈ v.mutation.actions, a.id = i ∧ b.id = j
        ∧ ∃ key ∈ a.mutatedKeys, key ∈ b.watchedKeys := by
  rw [List.mem_filterMap]
  constructor
  · rintro ⟨⟨source, target⟩, hfeeds, hedge⟩
    obtain ⟨a, b, ha, hb, hkey⟩ := mem_stateEdges.1 hfeeds
    simp only [ha, hb, Option.pure_def, Option.bind_eq_bind, Option.bind_some,
      Option.some.injEq, Edge.mk.injEq] at hedge
    exact ⟨a, List.mem_of_getElem? ha, b, List.mem_of_getElem? hb, hedge.1,
      hedge.2, hkey⟩
  · rintro ⟨a, ha, b, hb, rfl, rfl, hkey⟩
    obtain ⟨source, hsource⟩ := List.mem_iff_getElem?.1 ha
    obtain ⟨target, htarget⟩ := List.mem_iff_getElem?.1 hb
    exact ⟨(source, target), mem_stateEdges.2 ⟨a, b, hsource, htarget, hkey⟩,
      by simp [hsource, htarget]⟩

/-- The edges of a graph that is built, in terms of the actions they stand
for. -/
theorem leads_iff (h : v.buildGraph catalog = .ok built) {i j : String} :
    built.graph.Leads i j ↔
      (i = ExecutionGraph.rootId ∧ ∃ b ∈ v.mutation.actions, b.id = j
        ∧ startsAtRoot v b = true)
        ∨ ∃ a ∈ v.mutation.actions, ∃ b ∈ v.mutation.actions,
          a.id = i ∧ b.id = j
          ∧ ∃ key ∈ a.mutatedKeys, key ∈ b.watchedKeys := by
  by_cases hempty : v.mutation.actions = []
  · rw [v.buildGraph_of_nil catalog hempty] at h
    cases h
    simp [ExecutionGraph.Leads, ExecutionGraph.empty, hempty]
  · rw [v.buildGraph_eq catalog hempty] at h
    cases h
    rw [ExecutionGraph.Leads, graphEdges, List.mem_append,
      mem_filterMap_stateEdges]
    refine or_congr_left ?_
    simp only [List.mem_map, List.mem_filter,
      (perm_ordered v.mutation.actions).mem_iff, Edge.mk.injEq]
    constructor
    · rintro ⟨b, ⟨hb, hstarts⟩, rfl, hid⟩
      exact ⟨rfl, b, hb, hid, hstarts⟩
    · rintro ⟨rfl, b, hb, hid, hstarts⟩
      exact ⟨b, ⟨hb, hstarts⟩, rfl, hid⟩

/-- Every edge leads to an action of the mutation. -/
theorem exists_of_leads (h : v.buildGraph catalog = .ok built) {i j : String}
    (hleads : built.graph.Leads i j) : ∃ b ∈ v.mutation.actions, b.id = j := by
  rcases (leads_iff h).1 hleads
    with ⟨_, b, hb, hid, _⟩ | ⟨_, _, b, hb, _, hid, _⟩
  · exact ⟨b, hb, hid⟩
  · exact ⟨b, hb, hid⟩

/-! ## Each edge once -/

/-- Both ends of an edge are nodes. -/
theorem mem_ids_nodes_of_leads (h : v.buildGraph catalog = .ok built)
    {i j : String} (hleads : built.graph.Leads i j) :
    i ∈ built.graph.nodes.map (·.id) ∧ j ∈ built.graph.nodes.map (·.id) := by
  obtain ⟨b, hb, hj⟩ := exists_of_leads h hleads
  have hids := perm_ids_nodes h (List.ne_nil_of_mem hb)
  rw [hids.mem_iff, hids.mem_iff]
  refine ⟨?_, List.mem_cons_of_mem _ (List.mem_map.2 ⟨b, hb, hj⟩)⟩
  rcases (leads_iff h).1 hleads with ⟨rfl, _⟩ | ⟨a, ha, _, _, hi, _⟩
  · exact List.mem_cons_self
  · exact List.mem_cons_of_mem _ (List.mem_map.2 ⟨a, ha, hi⟩)

/-- Where the ids differ, an id is found at one position only. -/
theorem position_unique
    (hdistinct : (v.mutation.actions.map (·.id)).Nodup) {i j : Nat}
    {a b : Action} (ha : v.mutation.actions[i]? = some a)
    (hb : v.mutation.actions[j]? = some b) (hid : a.id = b.id) : i = j := by
  have hlt : i < (v.mutation.actions.map (·.id)).length := by
    rw [List.length_map]
    exact (List.getElem?_eq_some_iff.1 ha).1
  refine (List.getElem?_inj hlt hdistinct).1 ?_
  rw [List.getElem?_map, List.getElem?_map, ha, hb, Option.map_some,
    Option.map_some, hid]

/-- Pairs of positions are listed once, so where the ids differ, pairs of ids
are. -/
theorem nodup_filterMap_stateEdges
    (hdistinct : (v.mutation.actions.map (·.id)).Nodup) :
    ((stateEdges v.mutation.actions).filterMap fun (source, target) => do
      return Edge.mk (← v.mutation.actions[source]?).id
        (← v.mutation.actions[target]?).id).Nodup := by
  refine List.Nodup.filterMap ?_ (nodup_distinctBy_id _)
  rintro ⟨i, j⟩ ⟨i', j'⟩ e he he'
  obtain ⟨a, ha, he⟩ := Option.bind_eq_some_iff.1 he
  obtain ⟨b, hb, he⟩ := Option.bind_eq_some_iff.1 he
  obtain ⟨a', ha', he'⟩ := Option.bind_eq_some_iff.1 he'
  obtain ⟨b', hb', he'⟩ := Option.bind_eq_some_iff.1 he'
  cases he
  obtain ⟨hsource, htarget⟩ := Edge.mk.inj (Option.some.inj he')
  rw [position_unique hdistinct ha' ha hsource,
    position_unique hdistinct hb' hb htarget]

/-- Where the ids differ and none is that of the root, no edge is listed
twice. -/
theorem nodup_edges (h : v.buildGraph catalog = .ok built)
    (hdistinct : (v.mutation.actions.map (·.id)).Nodup)
    (hroot : ∀ a ∈ v.mutation.actions, a.id ≠ ExecutionGraph.rootId) :
    built.graph.edges.Nodup := by
  by_cases hempty : v.mutation.actions = []
  · rw [v.buildGraph_of_nil catalog hempty] at h
    cases h
    exact List.nodup_nil
  · rw [v.buildGraph_eq catalog hempty] at h
    cases h
    show (v.graphEdges _).Nodup
    rw [graphEdges, List.nodup_append']
    refine ⟨?_, nodup_filterMap_stateEdges hdistinct, ?_⟩
    · -- the root leads to actions of different ids
      have hids :=
        ((perm_ordered v.mutation.actions).map (·.id)).nodup_iff.2 hdistinct
      have hstarts :=
        hids.sublist (List.filter_sublist (p := startsAtRoot v).map (·.id))
      refine List.Nodup.map_on ?_ hstarts.of_map
      intro a ha b hb heq
      exact List.inj_on_of_nodup_map hstarts ha hb (Edge.mk.inj heq).2
    · -- an edge between actions does not leave the root
      intro e hstart hstate
      obtain ⟨_, _, rfl⟩ := List.mem_map.1 hstart
      obtain ⟨a, ha, _, _, hid, _⟩ := mem_filterMap_stateEdges.1 hstate
      exact hroot a ha hid

/-- The edges of the graph of actions with different ids, none that of the root.
There is one from the root to each action that the runtime starts, one from each
action to each that waits for a key it writes, and no other. -/
theorem buildGraph_edges (v : View) (catalog : Catalog)
    (hdistinct : (v.mutation.actions.map (·.id)).Nodup)
    (hroot : ∀ a ∈ v.mutation.actions, a.id ≠ ExecutionGraph.rootId) :
    ∃ built, v.buildGraph catalog = .ok built
      ∧ built.graph.edges.Nodup
      ∧ (∀ e ∈ built.graph.edges, e.source ∈ built.graph.nodes.map (·.id)
        ∧ e.target ∈ built.graph.nodes.map (·.id))
      ∧ ∀ e, e ∈ built.graph.edges ↔
        (∃ b ∈ v.mutation.actions, e = ⟨ExecutionGraph.rootId, b.id⟩
          ∧ ((∃ p ∈ v.pages, ∃ event ∈ p.events,
              Lifecycle.isEvent event.kind = true ∧ event.actionId = b.id)
            ∨ (∃ event, .lifecycle event ∈ b.triggeredBy)
            ∨ ∃ reason, .internal reason ∈ b.triggeredBy))
        ∨ ∃ a ∈ v.mutation.actions, ∃ b ∈ v.mutation.actions, e = ⟨a.id, b.id⟩
          ∧ ∃ key ∈ a.mutatedKeys, .stateChange key ∈ b.triggeredBy := by
  obtain ⟨built, _, hbuilt, _⟩ := v.exists_buildGraph catalog
  refine ⟨built, hbuilt, nodup_edges hbuilt hdistinct hroot,
    fun e he => mem_ids_nodes_of_leads hbuilt he, ?_⟩
  rintro ⟨i, j⟩
  show built.graph.Leads i j ↔ _
  rw [leads_iff hbuilt]
  simp only [startsAtRoot_iff, Action.mem_watchedKeys, Edge.mk.injEq]
  constructor
  · rintro (⟨rfl, b, hb, rfl, hstarts⟩ | ⟨a, ha, b, hb, rfl, rfl, hkey⟩)
    · exact .inl ⟨b, hb, ⟨rfl, rfl⟩, hstarts⟩
    · exact .inr ⟨a, ha, b, hb, ⟨rfl, rfl⟩, hkey⟩
  · rintro (⟨b, hb, ⟨rfl, rfl⟩, hstarts⟩ | ⟨a, ha, b, hb, ⟨rfl, rfl⟩, hkey⟩)
    · exact .inl ⟨rfl, b, hb, rfl, hstarts⟩
    · exact .inr ⟨a, ha, b, hb, rfl, rfl, hkey⟩

/-- A page of the snapshot starts a call, whose result and status one action
waits for. That action writes a key that it waits for itself, and another that
the call waits for. -/
def feedback : View where
  mutation := { Mutation.empty with
    actionsAdded := [
      { Action.bare "fetch" .integrationCall with
        config := [(ConfigKey.assignTo, .string "rows")]
        triggeredBy := [.stateChange "query"] },
      { Action.bare "shape" .internal with
        config := [(ConfigKey.updates,
          .object [("query", .null), ("rows", .null)])]
        triggeredBy := [.stateChange "rows", .stateChange "rowsStatus"] }] }
  prior := some { Snapshot.empty with
    pages := [⟨"home", none, none, [], [⟨Lifecycle.appStart, "fetch"⟩]⟩] }

/-- The page makes an edge from the root, two keys of the call make one, and a
key that an action writes and waits for makes a loop. What only waits for keys
is not led to from the root. -/
theorem buildGraph_edges_feedback :
    (feedback.mutation.actions.map (·.id)).Nodup
    ∧ (∀ a ∈ feedback.mutation.actions, a.id ≠ ExecutionGraph.rootId)
    ∧ ∃ built, feedback.buildGraph [] = .ok built
      ∧ built.graph.edges.Nodup
      ∧ built.graph.Leads ExecutionGraph.rootId "fetch"
      ∧ built.graph.Leads "fetch" "shape"
      ∧ built.graph.Leads "shape" "shape"
      ∧ ¬ built.graph.Leads ExecutionGraph.rootId "shape" := by
  have hdistinct : (feedback.mutation.actions.map (·.id)).Nodup := by decide
  have hroot :
      ∀ a ∈ feedback.mutation.actions, a.id ≠ ExecutionGraph.rootId := by decide
  obtain ⟨built, hbuilt, hnodup, _, hedges⟩ :=
    buildGraph_edges feedback [] hdistinct hroot
  have hfetch :=
    List.mem_of_getElem? (l := feedback.mutation.actions) (i := 0) rfl
  have hshape :=
    List.mem_of_getElem? (l := feedback.mutation.actions) (i := 1) rfl
  have hfed : built.graph.Leads "fetch" "shape" :=
    (hedges _).2 (.inr ⟨_, hfetch, _, hshape, rfl,
      "rowsStatus", by decide +kernel, by decide +kernel⟩)
  have hself : built.graph.Leads "shape" "shape" :=
    (hedges _).2 (.inr ⟨_, hshape, _, hshape, rfl,
      "rows", by decide +kernel, by decide +kernel⟩)
  refine ⟨hdistinct, hroot, built, hbuilt, hnodup,
    (hedges _).2 (.inl ⟨_, hfetch, rfl, .inl ?_⟩), hfed, hself,
    fun hleads => ?_⟩
  · exact ⟨⟨"home", none, none, [], [⟨Lifecycle.appStart, "fetch"⟩]⟩,
      by decide +kernel, _, List.mem_singleton_self _, rfl, rfl⟩
  · have hwaits : ∀ b ∈ feedback.mutation.actions, b.id = "shape" →
        startsAtRoot feedback b = false := by decide +kernel
    -- an edge from the root would be that of a load or one of an action with
    -- its id, and neither is there
    rcases (hedges _).1 hleads
      with ⟨b, hb, heq, hstarts⟩ | ⟨a, ha, _, _, heq, _⟩
    · have hnever := hwaits b hb (Edge.mk.inj heq).2.symm
      rw [startsAtRoot_iff.2 hstarts] at hnever
      cases hnever
    · exact hroot a ha (Edge.mk.inj heq).1.symm

end View

end IntentGraph
