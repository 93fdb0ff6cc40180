import IntentGraph.Proofs.Compilation
import IntentGraph.Proofs.Execution.Edges
import IntentGraph.Proofs.Repair.Frame

/-!
# What the ids of nodes name

The nodes of an execution graph are the root and one for every action, and a
node goes by its id. An accepted document has actions of different ids, but
nothing keeps the id of the root back for the root: an action may be spelled
like it, and then two nodes have it.

* `View.nodup_ids_nodes_iff`: the nodes have different ids iff no action has
  that of the root;
* `View.exists_rootId_repaired_iff`: repair makes no such action, as the ids
  that it makes begin with another character, and may remove one;
* `IntentDocument.nodeIds_of_compile`: so the nodes of an accepted document have
  different ids iff no action is spelled like the root and kept.
-/

namespace IntentGraph

/-! ## Nodes -/

namespace View

variable {v : View} {catalog : Catalog} {built : GraphBuild}

/-- The nodes of different actions have different ids, unless one of them has
that of the root. -/
theorem nodup_ids_nodes_iff (h : v.buildGraph catalog = .ok built)
    (hdistinct : (v.mutation.actions.map (·.id)).Nodup) :
    (built.graph.nodes.map (·.id)).Nodup
      ↔ ¬ ∃ a ∈ v.mutation.actions, a.id = ExecutionGraph.rootId := by
  by_cases hempty : v.mutation.actions = []
  · rw [v.buildGraph_of_nil catalog hempty] at h
    cases h
    simp [ExecutionGraph.empty, hempty]
  · rw [(perm_ids_nodes h hempty).nodup_iff, List.nodup_cons,
      and_iff_left hdistinct, List.mem_map]

/-- When no action has the id of the root, only the root has it. -/
theorem eq_rootNode_of_mem (h : v.buildGraph catalog = .ok built)
    (hfree : ¬ ∃ a ∈ v.mutation.actions, a.id = ExecutionGraph.rootId)
    {n : ExecutionNode} (hn : n ∈ built.graph.nodes)
    (hid : n.id = ExecutionGraph.rootId) : n = rootNode := by
  obtain ⟨ordered, hperm, hnodes⟩ := exists_nodes_eq h
  rw [hnodes] at hn
  split at hn
  · cases hn
  · rcases List.mem_cons.1 hn with rfl | hn
    · rfl
    · obtain ⟨a, ha, rfl⟩ := List.mem_map.1 hn
      rw [id_nodeOf] at hid
      exact absurd ⟨a, hperm.mem_iff.1 ha, hid⟩ hfree

end View

/-! ## Ids that repair makes -/

theorem ne_rootId_of_head? {id : String} {c : Char}
    (hid : id.toList.head? = some c) (hc : c ≠ '_') :
    id ≠ ExecutionGraph.rootId := by
  rintro rfl
  have hroot : ExecutionGraph.rootId.toList.head? = some '_' := by decide
  rw [hroot] at hid
  exact hc (Option.some.inj hid).symm

theorem UnreadOutput.freshId_ne_rootId (o : UnreadOutput)
    (taken : List String) :
    freshId taken o.idBase ≠ ExecutionGraph.rootId := by
  have hbase : o.idBase.toList.head? = some 'n' := by
    rw [idBase, String.toList_append]
    rfl
  exact ne_rootId_of_head? (head?_freshId taken hbase (by decide)) (by decide)

theorem MirrorPlan.freshId_ne_rootId (p : MirrorPlan) (taken : List String) :
    freshId taken p.idBase ≠ ExecutionGraph.rootId := by
  have hbase : p.idBase.toList.head? = some 'm' := by
    rw [idBase, String.toList_append, String.toList_append]
    rfl
  exact ne_rootId_of_head? (head?_freshId taken hbase (by decide)) (by decide)

/-- After a repair an action has the id of the root iff one had it that is not
removed. -/
theorem View.exists_rootId_repaired_iff {v : View} {reach : Reachability}
    {config : Configuration}
    (hdistinct : (v.mutation.actions.map (·.id)).Nodup) :
    (∃ a ∈ (v.repaired reach config).mutation.actions,
      a.id = ExecutionGraph.rootId)
      ↔ ∃ a ∈ v.mutation.actions, a.id = ExecutionGraph.rootId
        ∧ ¬ v.Removable reach a := by
  -- binding changes no id, and what is made gets another one than the root
  have hids : ((v.settle reach config).view v.prior).mutation.actions.map (·.id)
      = (v.removeActions (v.redundantIds reach)).mutation.actions.map (·.id) :=
    (rewires_settle v reach config).map_id
  constructor
  · rintro ⟨a, ha, hid⟩
    rcases Repairing.mem_actions_synthesize ha
      with hold | ⟨o, taken, hmade⟩ | ⟨p, taken, hmade⟩
    · have hmem :
          a.id ∈ (v.removeActions (v.redundantIds reach)).mutation.actions.map
            (·.id) := by
        rw [← hids]
        exact List.mem_map_of_mem hold
      obtain ⟨b, hb, hba⟩ := List.mem_map.1 hmem
      obtain ⟨hb, hkept⟩ := Mutation.mem_actions_removeActions.1 hb
      exact ⟨b, hb, hba.trans hid,
        mt (mem_redundantIds_iff hdistinct hb).2 hkept⟩
    · exact absurd (hmade.symm.trans hid) (o.freshId_ne_rootId taken)
    · exact absurd (hmade.symm.trans hid) (p.freshId_ne_rootId taken)
  · rintro ⟨a, ha, hid, hkept⟩
    obtain ⟨settled, normalizers, mirrors, rfl, _, _, hview⟩ :=
      exists_repair v reach config
    have hmem :
        a.id ∈ ((v.settle reach config).view v.prior).mutation.actions.map
          (·.id) := by
      rw [hids]
      exact List.mem_map_of_mem (Mutation.mem_actions_removeActions.2
        ⟨ha, mt (mem_redundantIds_iff hdistinct ha).1 hkept⟩)
    obtain ⟨b, hb, hba⟩ := List.mem_map.1 hmem
    rw [hview]
    exact ⟨b, mem_mutation_addActions.2 (.inl hb), hba.trans hid⟩

/-! ## Accepted documents -/

namespace IntentDocument

variable {config : Configuration} {d : IntentDocument} {c : Compilation}

/-- In normal spelling, an action of the document has the id of the root, and
repair does not remove it. -/
def KeepsRootId (config : Configuration) (d : IntentDocument) : Prop :=
  let v := View.ofDocument (d.normalForm config)
  ∃ a ∈ v.mutation.actions, a.id = ExecutionGraph.rootId
    ∧ ¬ (config.repair.enabled = true ∧ v.Removable v.reachability a)

/-- Only an action that is spelled like the root can have its id. -/
theorem not_keepsRootId
    (h : ∀ a ∈ d.mutation.actions, canonicalId a.id ≠ ExecutionGraph.rootId) :
    ¬ d.KeepsRootId config := by
  rintro ⟨a, ha, hid, _⟩
  have hmem : a.id ∈ (d.normalForm config).mutationIds := List.mem_map_of_mem ha
  rw [normalForm, ids_normalize] at hmem
  obtain ⟨raw, hraw, hcanonical⟩ := List.mem_map.1 hmem
  obtain ⟨b, hb, rfl⟩ := List.mem_map.1 hraw
  exact h b hb (hcanonical.trans hid)

theorem exists_rootId_mended_iff
    (hdistinct :
      ((View.ofDocument (d.normalForm config)).mutation.actions.map
        (·.id)).Nodup) :
    (∃ a ∈
        (View.ofDocument ((d.normalForm config).mended config)).mutation.actions,
      a.id = ExecutionGraph.rootId) ↔ d.KeepsRootId config := by
  by_cases henabled : config.repair.enabled = true
  · rw [view_mended henabled, View.exists_rootId_repaired_iff hdistinct]
    simp only [KeepsRootId, henabled, true_and]
  · rw [mended, repairIfEnabled, if_neg henabled]
    simp only [KeepsRootId, henabled, Bool.false_eq_true, false_and,
      not_false_eq_true, and_true]

/-- The nodes of an accepted document have different ids iff it does not keep an
action under the id of the root. Then that id names the root alone, and no edge
leads to it. A document keeps no such action when none of its own is spelled
like the root. -/
theorem nodeIds_of_compile (h : d.compile config = .ok c) :
    ∃ g, c.document.executionGraph = some g
      ∧ ((g.nodes.map (·.id)).Nodup ↔ ¬ d.KeepsRootId config)
      ∧ (¬ d.KeepsRootId config →
        (∀ n ∈ g.nodes, n.id = ExecutionGraph.rootId → n = rootNode)
        ∧ ∀ i, ¬ g.Leads i ExecutionGraph.rootId)
      ∧ ((∀ a ∈ d.mutation.actions, canonicalId a.id ≠ ExecutionGraph.rootId) →
        ¬ d.KeepsRootId config) := by
  obtain ⟨passes, built, hbuilt, hdocument⟩ := of_compile h
  -- ids differ before repair and after it, as either validation found
  have hkeeps :=
    exists_rootId_mended_iff
      (View.fatal?_structural.1 passes.structural).distinct
  have hdistinct := (View.fatal?_full.1 passes.full).1.distinct
  refine ⟨built.graph, by rw [hdocument], ?_, fun hfree => ?_, not_keepsRootId⟩
  · rw [View.nodup_ids_nodes_iff hbuilt hdistinct, hkeeps]
  · rw [← hkeeps] at hfree
    refine ⟨fun n hn hid => View.eq_rootNode_of_mem hbuilt hfree hn hid,
      fun i hleads => ?_⟩
    exact hfree (View.exists_of_leads hbuilt hleads)

/-- A call, and a status setter of repair's that is spelled like the root. -/
def setterDocument : IntentDocument where
  intentType := .modify
  mutation := { Mutation.empty with
    actionsAdded := [
      { Action.bare "load_rows" .integrationCall with
        config := [(ConfigKey.assignTo, .string "rows")]
        triggeredBy := [.lifecycle Lifecycle.pageLoad] },
      { Action.bare " __INIT__" .internal with
        config := [(ConfigKey.synthetic, .string ConfigKey.madeByRepair),
          (ConfigKey.stateKey, .string "rowsStatus")] }] }
  prior := none
  executionGraph := none

/-- Nothing runs the setter, so it is removed, and the id of the root is left to
the root. -/
theorem nodeIds_of_compile_setterDocument :
    ∃ c, setterDocument.compile .default = .ok c
      ∧ (∃ a ∈ setterDocument.mutation.actions,
        canonicalId a.id = ExecutionGraph.rootId)
      ∧ ∃ g, c.document.executionGraph = some g ∧ (g.nodes.map (·.id)).Nodup
        ∧ ∀ i, ¬ g.Leads i ExecutionGraph.rootId := by
  have passes : setterDocument.Passes .default :=
    ⟨by decide +kernel, by decide +kernel, by decide +kernel⟩
  have hfree : ¬ setterDocument.KeepsRootId .default := by
    let v := View.ofDocument (setterDocument.normalForm .default)
    have hremovable : ∀ a ∈ v.mutation.actions, a.id = ExecutionGraph.rootId →
        v.Removable v.reachability a := by decide +kernel
    rintro ⟨a, ha, hid, hkept⟩
    exact hkept ⟨rfl, hremovable a ha hid⟩
  obtain ⟨c, hc⟩ := exists_compile passes
  obtain ⟨g, hg, hnodup, hroot, _⟩ := nodeIds_of_compile hc
  exact ⟨c, hc, by decide +kernel, g, hg, hnodup.2 hfree, (hroot hfree).2⟩

/-- An action that is spelled like the root, and one that waits for what it
writes. -/
def rootNamesake : IntentDocument where
  intentType := .create
  mutation := { Mutation.empty with
    actionsAdded := [
      { Action.bare "__init__" .internal with
        config := [(ConfigKey.stateKey, .string "ready")]
        triggeredBy := [.lifecycle Lifecycle.pageLoad] },
      { Action.bare "shape" .internal with
        triggeredBy := [.stateChange "ready"] }] }
  prior := none
  executionGraph := none

/-- Two nodes of an accepted document have the id of the root. An edge leads to
it, and one leads from it to an action that no event of the runtime starts. -/
theorem duplicates_root_rootNamesake :
    ∃ c g, rootNamesake.compile .default = .ok c
      ∧ c.document.executionGraph = some g
      ∧ ¬ (g.nodes.map (·.id)).Nodup
      ∧ g.Leads ExecutionGraph.rootId ExecutionGraph.rootId
      ∧ g.Leads ExecutionGraph.rootId "shape" := by
  have passes : rootNamesake.Passes .default :=
    ⟨by decide +kernel, by decide +kernel, by decide +kernel⟩
  obtain ⟨c, hc⟩ := exists_compile passes
  obtain ⟨_, built, hbuilt, hdocument⟩ := of_compile hc
  let v := View.ofDocument ((rootNamesake.normalForm .default).mended .default)
  have hdistinct : (v.mutation.actions.map (·.id)).Nodup :=
    (View.fatal?_full.1 passes.full).1.distinct
  have hroot : ∃ a ∈ v.mutation.actions, a.id = ExecutionGraph.rootId := by
    decide +kernel
  -- each part is about the mended document, which is small enough to look at
  refine ⟨c, built.graph, hc, by rw [hdocument], ?_, ?_, ?_⟩
  · rw [View.nodup_ids_nodes_iff hbuilt hdistinct, not_not]
    exact hroot
  · refine (View.leads_iff hbuilt).2 (.inl ⟨rfl, ?_⟩)
    have hstarts : ∃ a ∈ v.mutation.actions, a.id = ExecutionGraph.rootId
        ∧ startsAtRoot v a = true := by decide +kernel
    exact hstarts
  · refine (View.leads_iff hbuilt).2 (.inr ?_)
    have hfeeds : ∃ a ∈ v.mutation.actions, ∃ b ∈ v.mutation.actions,
        a.id = ExecutionGraph.rootId ∧ b.id = "shape"
          ∧ ∃ key ∈ a.mutatedKeys, key ∈ b.watchedKeys := by decide +kernel
    exact hfeeds

end IntentDocument

end IntentGraph
