import IntentGraph.Proofs.Execution.GraphBuild
import IntentGraph.Proofs.Json

/-!
# Which calls are routed

Whether a call to an integration keeps its type is spread over the build: the
configuration names a capability and may mark the call, the catalog is read from
its end, and a call that degrades leaves a diagnostic beside its node.
`Action.RoutedTo` says it in one place, and what a build does with an action
follows from it.

* `routeCall_eq_ok`: a call is routed to a capability iff it names it, is not
  marked, and the catalog declares it last and with a provider;
* `routedNode_nodeOf`, `map_actionId_degradations`: the node of an action and
  its diagnostic.

Over the whole graph, in whatever order its nodes come to stand:
`View.buildGraph_routes`.
-/

namespace IntentGraph

/-! ## Routes -/

/-- A capability that a catalog declares, and that it declares no more after
that. -/
def Catalog.DeclaresLast (catalog : Catalog) (capability : Capability) : Prop :=
  ∃ before after, catalog = before ++ capability :: after
    ∧ ∀ c ∈ after, c.id ≠ capability.id

/-- A catalog resolves an id to what it declares last under it. -/
theorem Catalog.resolve?_eq_some {catalog : Catalog} {id : String}
    {capability : Capability} :
    catalog.resolve? id = some capability
      ↔ capability.id = id ∧ catalog.DeclaresLast capability := by
  rw [resolve?, List.find?_eq_some_iff_append]
  constructor
  · rintro ⟨hid, later, earlier, heq, hlater⟩
    obtain rfl : capability.id = id := by simpa using hid
    refine ⟨rfl, earlier.reverse, later.reverse, ?_, fun c hc => ?_⟩
    · rw [← List.reverse_reverse catalog, heq]
      simp
    · simpa using hlater c (List.mem_reverse.1 hc)
  · rintro ⟨rfl, before, after, rfl, hafter⟩
    refine ⟨by simp, after.reverse, before.reverse, by simp, fun c hc => ?_⟩
    simpa using hafter c (List.mem_reverse.1 hc)

namespace Action

theorem capability?_eq_some {a : Action} {id : String} :
    a.capability? = some id
      ↔ a.config.get? ConfigKey.capability = some (.string id) ∧ id ≠ "" := by
  rw [capability?, configText?, Option.filter_eq_some_iff,
    Option.bind_eq_some_iff]
  refine and_congr ?_ (by simp)
  constructor
  · rintro ⟨value, hvalue, hid⟩
    cases value <;> simp [Json.asString?] at hid
    rw [hvalue, hid]
  · exact fun h => ⟨_, h, rfl⟩

theorem isEphemeral_iff {a : Action} :
    a.isEphemeral = true
      ↔ a.config.get? ConfigKey.ephemeral = some (.bool true) := by
  rw [isEphemeral, beq_iff_eq, Option.bind_eq_some_iff]
  constructor
  · rintro ⟨value, hvalue, htrue⟩
    cases value <;> simp [Json.asBool?] at htrue
    rw [hvalue, htrue]
  · exact fun h => ⟨_, h, rfl⟩

/-- A call to an integration that names a capability by its id and is not marked
to have no provider, where the catalog declares the capability last under the id
and with a provider. -/
structure RoutedTo (catalog : Catalog) (a : Action)
    (capability : Capability) : Prop where
  kind : a.kind = .integrationCall
  named : a.config.get? ConfigKey.capability = some (.string capability.id)
  nonempty : capability.id ≠ ""
  unmarked : a.config.get? ConfigKey.ephemeral ≠ some (.bool true)
  declared : catalog.DeclaresLast capability
  provided : capability.ephemeral = false

/-- A call that is routed to some capability. -/
def Routed (catalog : Catalog) (a : Action) : Prop :=
  ∃ capability, a.RoutedTo catalog capability

/-- A call that is routed to none. -/
def Degraded (catalog : Catalog) (a : Action) : Prop :=
  a.kind = .integrationCall ∧ ¬ a.Routed catalog

end Action

variable {catalog : Catalog} {a : Action}

theorem routeCall_eq_ok {capability : Capability}
    (hkind : a.kind = .integrationCall) :
    routeCall catalog a = .ok capability ↔ a.RoutedTo catalog capability := by
  constructor
  · -- each guard of the routing that is passed gives a part of what it is to be
    -- routed
    intro h
    unfold routeCall at h
    split at h
    · cases h
    · next id hid =>
      obtain ⟨hnamed, hne⟩ := Action.capability?_eq_some.1 hid
      split at h
      · cases h
      · next hmark =>
        split at h
        · cases h
        · next found hfound =>
          obtain ⟨rfl, hlast⟩ := Catalog.resolve?_eq_some.1 hfound
          split at h
          · cases h
          · next hephemeral =>
            cases h
            exact ⟨hkind, hnamed, hne, mt Action.isEphemeral_iff.2 hmark, hlast,
              Bool.eq_false_iff.2 hephemeral⟩
  · intro h
    have hid : a.capability? = some capability.id :=
      Action.capability?_eq_some.2 ⟨h.named, h.nonempty⟩
    have hmark : a.isEphemeral = false :=
      Bool.eq_false_iff.2 (mt Action.isEphemeral_iff.1 h.unmarked)
    have hfound : catalog.resolve? capability.id = some capability :=
      Catalog.resolve?_eq_some.2 ⟨rfl, h.declared⟩
    simp [routeCall, hid, hmark, hfound, h.provided]

theorem routed_iff :
    a.Routed catalog
      ↔ a.kind = .integrationCall ∧ (routeCall catalog a).isOk = true := by
  constructor
  · rintro ⟨capability, h⟩
    rw [(routeCall_eq_ok h.kind).2 h]
    exact ⟨h.kind, rfl⟩
  · rintro ⟨hkind, hok⟩
    cases hroute : routeCall catalog a with
    | error reason => rw [hroute] at hok; cases hok
    | ok capability => exact ⟨capability, (routeCall_eq_ok hkind).1 hroute⟩

instance (catalog : Catalog) : DecidablePred (Action.Routed catalog) :=
  fun _ => decidable_of_iff _ routed_iff.symm

instance (catalog : Catalog) : DecidablePred (Action.Degraded catalog) :=
  fun _ => inferInstanceAs (Decidable (_ ∧ _))

/-- A call degrades for a reason, or is routed. -/
theorem degraded_iff (hkind : a.kind = .integrationCall) :
    a.Degraded catalog ↔ ∃ reason, routeCall catalog a = .error reason := by
  rw [Action.Degraded, routed_iff]
  cases routeCall catalog a with
  | error reason => simp [hkind, Except.isOk, Except.toBool]
  | ok capability => simp [hkind, Except.isOk, Except.toBool]

/-! ## Nodes -/

/-- A node of an action. It calls an integration iff the action is routed, and
where a call degrades, it emits an event that says what it was. -/
structure RoutedNode (catalog : Catalog) (a : Action)
    (n : ExecutionNode) : Prop where
  id : n.id = a.id
  calls : n.nodeType = .integrationCall ↔ a.Routed catalog
  degrades : a.Degraded catalog → n.nodeType = .emitEvent
    ∧ n.params.get? "degradedFrom"
      = some (.string ActionKind.integrationCall.name)

theorem routedNode_nodeOf (catalog : Catalog) (a : Action) :
    RoutedNode catalog a (nodeOf catalog a) := by
  -- of a kind that is no call, the node is none either
  have hother :
      ∀ {type : NodeType} {params : Fields}, a.kind ≠ .integrationCall →
      type ≠ .integrationCall → RoutedNode catalog a ⟨a.id, type, params⟩ := by
    intro type params hkind htype
    exact ⟨rfl,
      iff_of_false htype fun hrouted => hkind (routed_iff.1 hrouted).1,
      fun hdegraded => absurd hdegraded.1 hkind⟩
  unfold nodeOf
  split
  · next hkind =>
    split
    · next capability hroute =>
      have hrouted : a.Routed catalog :=
        ⟨capability, (routeCall_eq_ok hkind).1 hroute⟩
      exact ⟨rfl, iff_of_true rfl hrouted,
        fun hdegraded => absurd hrouted hdegraded.2⟩
    · next reason hroute =>
      have hdegraded : a.Degraded catalog :=
        (degraded_iff hkind).2 ⟨reason, hroute⟩
      refine ⟨rfl, iff_of_false nofun hdegraded.2, fun _ => ⟨rfl, ?_⟩⟩
      rw [hkind]
      exact Fields.get?_insert_self _ _ _
  all_goals
    next hkind => exact hother (by rw [hkind]; nofun) nofun

/-! ## Diagnostics -/

/-- The diagnostics of a code. -/
def diagnosticsOf (code : String) (diagnostics : List Diagnostic) :
    List Diagnostic :=
  diagnostics.filter (·.code = code)

theorem degradation?_eq_none (h : ¬ a.Degraded catalog) :
    degradation? catalog a = none := by
  unfold degradation?
  split
  · next reason hkind hroute =>
    exact absurd ((degraded_iff hkind).2 ⟨reason, hroute⟩) h
  · rfl

theorem exists_degradation? (h : a.Degraded catalog) :
    ∃ reason, degradation? catalog a
      = some ⟨.graph, "degraded_integration", some a.id,
        Degradation.message reason⟩ := by
  obtain ⟨reason, hroute⟩ := (degraded_iff h.1).1 h
  exact ⟨reason, by rw [degradation?, h.1, hroute]⟩

/-- Of actions in a row, those that degrade have a diagnostic each, in their
order. -/
theorem map_actionId_degradations (catalog : Catalog) (ordered : List Action) :
    (diagnosticsOf "degraded_integration"
      (ordered.filterMap (degradation? catalog))).map
        (·.actionId)
      = (ordered.filter (Action.Degraded catalog)).map fun a => some a.id := by
  induction ordered with
  | nil => rfl
  | cons a ordered ih =>
    by_cases h : a.Degraded catalog
    · obtain ⟨reason, hdiagnostic⟩ := exists_degradation? h
      rw [List.filterMap_cons_some hdiagnostic,
        List.filter_cons_of_pos (by simpa using h), List.map_cons, ← ih]
      rfl
    · rw [List.filterMap_cons_none (degradation?_eq_none h),
        List.filter_cons_of_neg (by simpa using h), ih]

/-- The diagnostic of a cycle is of another code. -/
theorem diagnosticsOf_nodeOrder (actions : List Action) :
    diagnosticsOf "degraded_integration" (nodeOrder actions).2 = [] := by
  unfold nodeOrder
  split
  · rfl
  · next n _ => cases actions[n]? <;> rfl

/-! ## The whole graph -/

/-- Related to the nodes of a graph, the actions that are routed are those whose
nodes call. -/
theorem map_id_filter_calls {ordered : List Action} {nodes : List ExecutionNode}
    (h : List.Forall₂ (RoutedNode catalog) ordered nodes) :
    (nodes.filter (·.nodeType = .integrationCall)).map (·.id)
      = (ordered.filter (Action.Routed catalog)).map (·.id) := by
  induction h with
  | nil => rfl
  | @cons a n _ _ hnode _ ih =>
    by_cases hrouted : a.Routed catalog
    · rw [List.filter_cons_of_pos (by simpa using hnode.calls.2 hrouted),
        List.filter_cons_of_pos (by simpa using hrouted), List.map_cons,
        List.map_cons, hnode.id, ih]
    · rw [List.filter_cons_of_neg (by simpa using mt hnode.calls.1 hrouted),
        List.filter_cons_of_neg (by simpa using hrouted), ih]

/-- What a build makes of the actions of a mutation, in the order in which their
nodes stand. -/
structure Routing (catalog : Catalog) (actions ordered : List Action)
    (built : GraphBuild) : Prop where
  perm : ordered.Perm actions
  nodes : ∃ nodes,
    built.graph.nodes = (if actions = [] then [] else [rootNode]) ++ nodes
    ∧ List.Forall₂ (RoutedNode catalog) ordered nodes
  calls : (built.graph.nodes.filter (·.nodeType = .integrationCall)).map (·.id)
    = (ordered.filter (Action.Routed catalog)).map (·.id)
  diagnostics :
    (diagnosticsOf "degraded_integration" built.diagnostics).map (·.actionId)
    = (ordered.filter (Action.Degraded catalog)).map fun a => some a.id

/-- A graph is built whatever the mutation and the catalog are. The nodes that
call an integration are those of the calls that are routed, every other call to
an integration emits an event that says so, and these alone are told of by
diagnostics, one each and in the order of the nodes. -/
theorem View.buildGraph_routes (v : View) (catalog : Catalog) :
    ∃ built ordered, v.buildGraph catalog = .ok built
      ∧ Routing catalog v.mutation.actions ordered built := by
  by_cases hempty : v.mutation.actions = []
  · refine ⟨_, [], v.buildGraph_of_nil catalog hempty, ?_⟩
    rw [hempty]
    exact ⟨.refl _, ⟨[], rfl, .nil⟩, rfl, rfl⟩
  · let ordered :=
      (nodeOrder v.mutation.actions).1.filterMap (v.mutation.actions[·]?)
    have hnodes :
        List.Forall₂ (RoutedNode catalog) ordered
          (ordered.map (nodeOf catalog)) := by
      rw [List.forall₂_map_right_iff, List.forall₂_same]
      exact fun a _ => routedNode_nodeOf catalog a
    refine ⟨_, ordered, v.buildGraph_eq catalog hempty,
      perm_ordered _, ?_, ?_, ?_⟩
    · rw [if_neg hempty]
      exact ⟨_, rfl, hnodes⟩
    · have hroot : rootNode.nodeType ≠ .integrationCall := nofun
      rw [← map_id_filter_calls hnodes,
        List.filter_cons_of_neg (by simpa using hroot)]
    · show ((List.filter _ (_ ++ _)).map _ : List (Option String)) = _
      rw [List.filter_append, List.map_append, ← map_actionId_degradations]
      exact congrArg (List.map _ · ++ _) (diagnosticsOf_nodeOrder _)

end IntentGraph
