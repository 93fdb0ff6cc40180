import IntentGraph.Proofs.Execution.DryRun
import IntentGraph.Proofs.Execution.Edges

/-!
# The dry run walks the execution graph

The dry run follows ids of the merged view, and the graph joins the ids of all
entries of the mutation. When the snapshot brings no actions, what counts for an
id is one of these entries, so the graph has every way that the dry run takes:

* an action that the load of a page starts is led to from the root
  (`View.StartsOnLoad.leads`), and one that is woken from the one that wakes it
  (`View.Wakes.leads`);
* a loop of waking is a cycle of feeding between positions
  (`View.exists_feeds_loop`). The converse fails: a shadowed entry feeds others
  and is never run.

`View.simulate_walks_graph` joins the two.
-/

namespace IntentGraph

open Relation

namespace View

variable {v : View} {catalog : Catalog} {built : GraphBuild}

/-! ## Actions of the mutation alone -/

theorem priorActions_eq_nil :
    v.priorActions = [] ↔ ∀ s, v.prior = some s → s.actions = [] := by
  rw [priorActions]
  cases v.prior <;> simp

/-- Without actions in the snapshot an id stands for the first of the mutation
that has it. -/
theorem action?_eq_mutation (hprior : v.priorActions = []) (id : String) :
    v.action? id = v.mutation.action? id := by
  rw [action?_eq, hprior, List.find?_nil, Option.or_none]

theorem mem_mutation_of_action? (hprior : v.priorActions = [])
    {id : String} {a : Action} (h : v.action? id = some a) :
    a ∈ v.mutation.actions := by
  rw [action?_eq_mutation hprior] at h
  exact List.mem_of_find?_eq_some h

theorem length_actions_le (hprior : v.priorActions = []) :
    v.actions.length ≤ v.mutation.actions.length := by
  have hsub :=
    (distinctBy_sublist Action.id (v.mutation.actions
      ++ v.priorActions)).length_le
  rw [hprior, List.append_nil] at hsub
  rw [actions, ← priorActions, hprior, List.append_nil]
  exact hsub

/-! ## Ways of the dry run -/

/-- The root leads to what the load of a page starts. -/
theorem StartsOnLoad.leads (hprior : v.priorActions = [])
    (hbuilt : v.buildGraph catalog = .ok built) {id : String}
    (h : v.StartsOnLoad id) :
    built.graph.Leads ExecutionGraph.rootId id := by
  obtain ⟨a, ha, hstart⟩ := h
  have hid := id_of_action? ha
  refine (leads_iff hbuilt).2
    (.inl ⟨rfl, a, mem_mutation_of_action? hprior ha, hid, ?_⟩)
  rw [startsAtRoot_iff]
  rcases hstart with hown | ⟨p, hp, e, he, hkind, htarget⟩
  · exact .inr (.inl ⟨_, hown⟩)
  · refine .inl ⟨p, hp, e, he, ?_, htarget.trans hid.symm⟩
    rw [hkind]
    decide

/-- The id of an action leads to those that it wakes. -/
theorem Wakes.leads (hprior : v.priorActions = [])
    (hbuilt : v.buildGraph catalog = .ok built) {i j : String}
    (h : v.Wakes i j) : built.graph.Leads i j := by
  obtain ⟨a, b, ha, hb, hkey⟩ := h
  exact (leads_iff hbuilt).2 (.inr ⟨a, mem_mutation_of_action? hprior ha, b,
    mem_mutation_of_action? hprior hb, id_of_action? ha,
    id_of_action? hb, hkey⟩)

/-- A path from the root leads to every action that runs on load. -/
theorem RunsOnLoad.transGen_leads (hprior : v.priorActions = [])
    (hbuilt : v.buildGraph catalog = .ok built) {id : String}
    (h : v.RunsOnLoad id) :
    TransGen built.graph.Leads ExecutionGraph.rootId id := by
  obtain ⟨start, hstart, hchain⟩ := h
  have hmono : v.Wakes ≤ built.graph.Leads :=
    fun _ _ hwakes => hwakes.leads hprior hbuilt
  exact .trans_left (.single (hstart.leads hprior hbuilt))
    (ReflTransGen.mono hmono _ _ hchain)

/-! ## Loops -/

/-- The position of the first action with an id. -/
def position (v : View) (id : String) : Nat :=
  v.mutation.actions.findIdx (·.id == id)

theorem getElem?_position (hprior : v.priorActions = [])
    {id : String} {a : Action} (h : v.action? id = some a) :
    v.mutation.actions[v.position id]? = some a := by
  rw [action?_eq_mutation hprior, Mutation.action?,
    List.find?_eq_getElem?_findIdx] at h
  exact h

theorem Wakes.feeds (hprior : v.priorActions = []) {i j : String}
    (h : v.Wakes i j) :
    Feeds v.mutation.actions (v.position i) (v.position j) := by
  obtain ⟨a, b, ha, hb, hkey⟩ := h
  exact ⟨a, b, getElem?_position hprior ha, getElem?_position hprior hb, hkey⟩

/-- Where waking loops, feeding does. -/
theorem exists_feeds_loop (hprior : v.priorActions = []) {i : String}
    (h : TransGen v.Wakes i i) : ∃ n, TransGen (Feeds v.mutation.actions) n n :=
  ⟨v.position i, h.lift v.position fun _ _ hwakes => hwakes.feeds hprior⟩

/-! ## The walk -/

/-- The dry run of a view whose snapshot has no actions walks its execution
graph. A path from the root leads to everything it visits, and when the graph is
built without the diagnostic of a cycle, the square of the number of actions is
budget enough. -/
theorem simulate_walks_graph (v : View) (catalog : Catalog)
    (hprior : ∀ s, v.prior = some s → s.actions = []) :
    ∃ built, v.buildGraph catalog = .ok built
      ∧ (∀ budget, ∀ id ∈ (v.simulate budget).visited,
        TransGen built.graph.Leads ExecutionGraph.rootId id)
      ∧ v.actions.length ≤ v.mutation.actions.length
      ∧ ((∀ d ∈ built.diagnostics, d.code ≠ cycleCode) →
        ∀ budget, v.actions.length * v.actions.length ≤ budget →
          (v.simulate budget).outcome = .completed) := by
  have hnone : v.priorActions = [] := priorActions_eq_nil.2 hprior
  obtain ⟨built, _, hbuilt, _⟩ := v.exists_buildGraph catalog
  refine ⟨built, hbuilt, fun budget id hid => ?_, length_actions_le hnone,
    fun hreport budget hbudget => ?_⟩
  · exact (runsOnLoad_of_mem_visited hid).transGen_leads hnone hbuilt
  · have hloop : ¬ v.LoopsOnLoad := by
      rintro ⟨_, _, c, _, hcycle⟩
      obtain ⟨d, hd, hcode⟩ :=
        (exists_cycleCode_iff hbuilt).2 (exists_feeds_loop hnone hcycle)
      exact hreport d hd hcode
    exact simulate_completed hloop hbudget

/-- A page of the snapshot starts a call, and an action waits for what it
assigns. A shadowed entry of the same id waits for what that action writes. -/
def pageWired : View where
  mutation := { Mutation.empty with
    actionsAdded := [
      { Action.bare "fetch" .integrationCall with
        config := [(ConfigKey.assignTo, .string "rawRows")] },
      { Action.bare "shape" .internal with
        config := [(ConfigKey.stateKey, .string "rows")]
        triggeredBy := [.stateChange "rawRows"] },
      { Action.bare "shape" .internal with
        triggeredBy := [.stateChange "rows"] }] }
  prior := some { Snapshot.empty with
    pages := [⟨"home", none, none, [], [⟨Lifecycle.pageLoad, "fetch"⟩]⟩] }

/-- By id the graph leads from an action to itself here. By position there is no
cycle, and the run comes to its end. -/
theorem simulate_walks_graph_pageWired :
    (∀ s, pageWired.prior = some s → s.actions = [])
    ∧ ∃ built, pageWired.buildGraph [] = .ok built
      ∧ built.graph.Leads "shape" "shape"
      ∧ TransGen built.graph.Leads ExecutionGraph.rootId "shape"
      ∧ (∀ d ∈ built.diagnostics, d.code ≠ cycleCode)
      ∧ (pageWired.simulate 4).outcome = .completed := by
  have hprior : ∀ s, pageWired.prior = some s → s.actions = [] := by
    rintro s ⟨⟩
    rfl
  obtain ⟨built, hbuilt, hvisited, _, hcompleted⟩ :=
    simulate_walks_graph pageWired [] hprior
  have hforward :
      ∀ {i j : Nat}, Feeds pageWired.mutation.actions i j → i < j := by
    intro i j hfeeds
    have hedges : ∀ e ∈ stateEdges pageWired.mutation.actions, e.1 < e.2 := by
      decide +kernel
    exact hedges (i, j) (mem_stateEdges.2 hfeeds)
  have hreport : ∀ d ∈ built.diagnostics, d.code ≠ cycleCode := by
    intro d hd hcode
    obtain ⟨i, hcycle⟩ := (exists_cycleCode_iff hbuilt).1 ⟨d, hd, hcode⟩
    exact Digraph.not_transGen_of_lt id hforward i hcycle
  refine ⟨hprior, built, hbuilt, ?_,
    hvisited 4 "shape" (by decide +kernel), hreport,
    hcompleted hreport 4 (by decide +kernel)⟩
  exact (leads_iff hbuilt).2
    (.inr ⟨_, List.mem_of_getElem? (i := 1) rfl, _,
      List.mem_of_getElem? (i := 2) rfl, rfl, rfl, "rows",
      by decide +kernel, by decide +kernel⟩)

end View

end IntentGraph
