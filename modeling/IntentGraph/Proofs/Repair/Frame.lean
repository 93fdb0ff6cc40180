import IntentGraph.Proofs.Repair.Closure

/-!
# What repair leaves alone

Repair removes synthetic status setters that cannot run, binds orphans and adds
actions of its own. `View.Frame` says of two mutations that they differ in
nothing else, list by list and field by field. A binding is an instance of
`Mutation.Rebound`, in which actions get triggers by a relation and pages get
loads; the ids of the plans differ, so over a run of them an action gets one
trigger at most (`View.rebound_bindAll`). With the removal before it and the
addition after it this is the frame of repair: `View.frame_repair`.
-/

namespace IntentGraph

/-! ## One trigger -/

/-- The action with one trigger added if its id is among some ids, or else as it
was. -/
def Action.BoundOnce (ids : List String) (a a' : Action) : Prop :=
  a' = a ∨ a.id ∈ ids ∧ ∃ trigger, a' = { a with
    triggeredBy := a.triggeredBy ++ [trigger] }

namespace Action.BoundOnce

variable {ids ids' : List String} {a b c : Action}

theorem refl (ids : List String) (a : Action) : BoundOnce ids a a := .inl rfl

theorem id_eq (h : BoundOnce ids a b) : b.id = a.id := by
  rcases h with rfl | ⟨_, _, rfl⟩ <;> rfl

theorem mono (h : BoundOnce ids a b) (hsub : ids ⊆ ids') : BoundOnce ids' a b :=
  h.imp_right fun ⟨hid, htrigger⟩ => ⟨hsub hid, htrigger⟩

/-- Where the ids differ, one of two bindings leaves the action alone. -/
theorem append (hdisjoint : ids.Disjoint ids') (h : BoundOnce ids a b)
    (h' : BoundOnce ids' b c) :
    BoundOnce (ids ++ ids') a c := by
  have hid := h.id_eq
  rcases h with rfl | h
  · exact h'.mono (List.subset_append_right _ _)
  · rcases h' with rfl | h'
    · exact .inr ⟨List.mem_append_left _ h.1, h.2⟩
    · rw [hid] at h'
      exact absurd h'.1 (hdisjoint h.1)

theorem addTrigger (t : Trigger) (hid : a.id ∈ ids) :
    BoundOnce ids a (a.addTrigger t) := by
  rw [Action.addTrigger]
  split
  · exact refl ids a
  · exact .inr ⟨hid, t, rfl⟩

end Action.BoundOnce

/-! ## Bindings -/

/-- The actions differ by a relation and the pages by loads of some ids, some
pages are carried over from elsewhere, and nothing else differs. -/
structure Mutation.Rebound (R : Action → Action → Prop) (ids : List String)
    (pages : List Page) (m m' : Mutation) : Prop where
  actionsAdded : List.Forall₂ R m.actionsAdded m'.actionsAdded
  actionsUpdated : List.Forall₂ R m.actionsUpdated m'.actionsUpdated
  componentsAdded : m'.componentsAdded = m.componentsAdded
  componentsUpdated : m'.componentsUpdated = m.componentsUpdated
  pagesAdded : List.Forall₂ (Page.Rewired ids) m.pagesAdded m'.pagesAdded
  pagesUpdated : ∃ kept carried, m'.pagesUpdated = kept ++ carried
    ∧ List.Forall₂ (Page.Rewired ids) m.pagesUpdated kept
    ∧ ∀ p' ∈ carried, ∃ p ∈ pages, p.Rewired ids p'
  stateAdded : m'.stateAdded = m.stateAdded
  stateUpdated : m'.stateUpdated = m.stateUpdated
  containerPropsUpdated : m'.containerPropsUpdated = m.containerPropsUpdated

namespace Mutation.Rebound

variable {R R' R'' : Action → Action → Prop} {ids : List String}
  {pages : List Page} {m m' m'' : Mutation}

theorem refl (hR : ∀ a, R a a) (ids : List String) (pages : List Page)
    (m : Mutation) :
    Rebound R ids pages m m where
  actionsAdded := List.forall₂_same.2 fun a _ => hR a
  actionsUpdated := List.forall₂_same.2 fun a _ => hR a
  componentsAdded := rfl
  componentsUpdated := rfl
  pagesAdded := List.forall₂_same.2 fun p _ => .refl ids p
  pagesUpdated := ⟨m.pagesUpdated, [], (List.append_nil _).symm,
    List.forall₂_same.2 fun p _ => .refl ids p, nofun⟩
  stateAdded := rfl
  stateUpdated := rfl
  containerPropsUpdated := rfl

theorem imp (h : Rebound R ids pages m m') (hR : ∀ a b, R a b → R' a b) :
    Rebound R' ids pages m m' :=
  { h with
    actionsAdded := h.actionsAdded.imp hR,
    actionsUpdated := h.actionsUpdated.imp hR }

theorem trans (hR : ∀ a b c, R a b → R' b c → R'' a c)
    (h : Rebound R ids pages m m') (h' : Rebound R' ids pages m' m'') :
    Rebound R'' ids pages m m'' where
  actionsAdded := forall₂_trans h.actionsAdded h'.actionsAdded hR
  actionsUpdated := forall₂_trans h.actionsUpdated h'.actionsUpdated hR
  componentsAdded := h'.componentsAdded.trans h.componentsAdded
  componentsUpdated := h'.componentsUpdated.trans h.componentsUpdated
  pagesAdded := forall₂_trans h.pagesAdded h'.pagesAdded (fun _ _ _ => .trans)
  pagesUpdated := by
    obtain ⟨kept, carried, heq, hkept, hcarried⟩ := h.pagesUpdated
    obtain ⟨kept', carried', heq', hkept', hcarried'⟩ := h'.pagesUpdated
    -- what the first run carried over is among what the second one keeps
    rw [heq] at hkept'
    obtain ⟨old, moved, rfl, hold, hmoved⟩ := exists_append_of_forall₂ hkept'
    refine ⟨old, moved ++ carried', by rw [heq', List.append_assoc],
      forall₂_trans hkept hold (fun _ _ _ => .trans), fun q hq => ?_⟩
    rcases List.mem_append.1 hq with hq | hq
    · obtain ⟨p', hp', hrewired'⟩ := mem_right_of_forall₂ hmoved hq
      obtain ⟨p, hp, hrewired⟩ := hcarried p' hp'
      exact ⟨p, hp, hrewired.trans hrewired'⟩
    · exact hcarried' q hq
  stateAdded := h'.stateAdded.trans h.stateAdded
  stateUpdated := h'.stateUpdated.trans h.stateUpdated
  containerPropsUpdated :=
    h'.containerPropsUpdated.trans h.containerPropsUpdated

end Mutation.Rebound

namespace View

variable {ids : List String} {m : Mutation} {prior : Option Snapshot}

/-- Giving a trigger to an action. -/
theorem rebound_addTrigger (pages : List Page) (m : Mutation) (id : String)
    (t : Trigger) :
    m.Rebound (Action.BoundOnce [id]) ids pages
      ((m.modifyAction? id (Action.addTrigger t)).getD m) := by
  have step : ∀ a : Action, (a.id == id) = true →
      a.BoundOnce [id] (a.addTrigger t) := by
    intro a ha
    exact Action.BoundOnce.addTrigger t (by simpa using ha)
  have start : m.Rebound (Action.BoundOnce [id]) ids pages m :=
    .refl (.refl [id]) ids pages m
  cases h : m.modifyAction? id (Action.addTrigger t) with
  | none => exact start
  | some m' =>
    rcases modifyAction?_eq_some h
      with ⟨added, hadded, rfl⟩ | ⟨updated, hupdated, rfl⟩
    · exact { start with
        actionsAdded :=
          forall₂_modifyFirst? (Action.BoundOnce.refl [id]) step hadded }
    · exact { start with
        actionsUpdated :=
          forall₂_modifyFirst? (Action.BoundOnce.refl [id]) step hupdated }

/-- Wiring the load of a page. -/
theorem rebound_wirePageLoad (m : Mutation) (page : String) {action : String}
    (hid : action ∈ ids) : m.Rebound Eq ids ((prior.map Snapshot.pages).getD [])
      (m.wirePageLoad prior page action) := by
  have hwire : ∀ p : Page, p.Rewired ids (p.wire Lifecycle.pageLoad action) :=
    Page.rewired_wire hid
  have start : m.Rebound Eq ids ((prior.map Snapshot.pages).getD []) m :=
    .refl (fun _ => rfl) _ _ m
  rcases wirePageLoad_cases m prior page action
    with h | ⟨p, _, hp, heq⟩ | ⟨_, heq⟩
  · -- the page is one of the mutation, in one of its two lists
    rcases Mutation.modifyPage?_eq_some h
      with ⟨added, hadded, heq⟩ | ⟨updated, hupdated, heq⟩
    · rw [heq]
      exact { start with
        pagesAdded :=
          forall₂_modifyFirst? (Page.Rewired.refl ids)
            (fun p _ => hwire p) hadded }
    · rw [heq]
      exact { start with
        pagesUpdated := ⟨updated, [], (List.append_nil _).symm,
          forall₂_modifyFirst? (Page.Rewired.refl ids)
          (fun p _ => hwire p) hupdated, List.forall_mem_nil _⟩ }
  · -- only the snapshot has the page: it is carried over
    have hprior : p ∈ (prior.map Snapshot.pages).getD [] :=
      List.mem_of_find?_eq_some hp
    rw [heq]
    exact { start with
      pagesUpdated := ⟨m.pagesUpdated, [p.wire Lifecycle.pageLoad action], rfl,
        List.forall₂_same.2 fun q _ => .refl ids q,
        fun p' hp' => ⟨p, hprior, List.mem_singleton.1 hp' ▸ hwire p⟩⟩ }
  · -- no page of the name is there, and nothing is wired
    rw [heq]
    exact start

/-- One binding. -/
theorem rebound_bind (m : Mutation) (reason : String)
    {id : String} (b : Binding) (hid : id ∈ ids) :
    m.Rebound (Action.BoundOnce [id]) ids ((prior.map Snapshot.pages).getD [])
      (m.bind prior reason id b) := by
  have htrigger :
      m.Rebound (Action.BoundOnce [id]) ids
        ((prior.map Snapshot.pages).getD []) _ :=
    rebound_addTrigger _ m id (b.trigger reason)
  cases b with
  | pageLoad page =>
    refine htrigger.trans ?_ (rebound_wirePageLoad _ page hid)
    rintro a b _ h rfl
    exact h
  | stateChange key => exact htrigger
  | safetyNet => exact htrigger

/-- In a run of bindings for different ids an action gets one trigger at
most. -/
theorem rebound_bindAll (m : Mutation) (reason : String)
    {plans : List (String × Binding)} (hnodup : (plans.map (·.1)).Nodup)
    (hsub : plans.map (·.1) ⊆ ids) :
    m.Rebound (Action.BoundOnce (plans.map (·.1))) ids
      ((prior.map Snapshot.pages).getD []) (m.bindAll prior reason plans) := by
  induction plans generalizing m with
  | nil => exact .refl (.refl []) _ _ m
  | cons plan plans ih =>
    rw [List.map_cons, List.nodup_cons] at hnodup
    rw [List.map_cons, List.cons_subset] at hsub
    -- the ids of the plans differ, so no action gets a trigger from two of them
    have hdisjoint : [plan.1].Disjoint (plans.map (·.1)) := by
      simpa using hnodup.1
    have hfirst : m.Rebound _ ids ((prior.map Snapshot.pages).getD []) _ :=
      rebound_bind m reason plan.2 hsub.1
    have hrest := ih (m.bind prior reason plan.1 plan.2) hnodup.2 hsub.2
    exact hfirst.trans (fun _ _ _ h h' => h.append hdisjoint h') hrest

end View

/-! ## The frame of repair -/

namespace View

/-- What may be removed: an action that repair made, that cannot run, and that
writes something, but only status and error keys that the executor keeps. -/
structure Removable (v : View) (reach : Reachability) (a : Action) : Prop where
  synthetic : a.isSynthetic = true
  unreachable : reach.isReachable a.id = false
  writes : a.mutatedKeys ≠ ∅
  kept : ∀ key ∈ a.mutatedKeys, key ∈ v.executorManagedKeys

theorem isRedundant_iff {v : View} {reach : Reachability} {a : Action} :
    v.isRedundant reach a = true ↔ v.Removable reach a := by
  simp only [isRedundant, Bool.and_eq_true, Bool.not_eq_true',
    List.isEmpty_eq_false_iff, List.all_eq_true, KeySet.contains_iff_mem, ne_eq,
    KeySet.members_eq_nil, KeySet.mem_members]
  constructor
  · rintro ⟨⟨⟨hsynthetic, hreach⟩, hwrites⟩, hkept⟩
    exact ⟨hsynthetic, hreach, hwrites, hkept⟩
  · rintro ⟨hsynthetic, hreach, hwrites, hkept⟩
    exact ⟨⟨⟨hsynthetic, hreach⟩, hwrites⟩, hkept⟩

instance (v : View) (reach : Reachability) :
    DecidablePred (v.Removable reach) :=
  fun _ => decidable_of_iff _ isRedundant_iff

/-- The ids of the actions that are removed from the mutation. -/
def removed (v : View) (reach : Reachability) : List String :=
  (v.mutation.actions.filter fun a => v.Removable reach a).map (·.id)

/-- What a repaired mutation `out` has of the one before: the actions `added`
and `updated` that survive, new actions `made`, and pages `carried` over from
the snapshot. -/
structure Frame (v : View) (reach : Reachability) (out : Mutation)
    (added updated made : List Action) (carried : List Page) : Prop where
  actionsAdded : out.actionsAdded = added ++ made
  actionsUpdated : out.actionsUpdated = updated
  keptAdded : List.Forall₂ (Action.BoundOnce reach.orphans)
    (v.mutation.actionsAdded.filter fun a => ¬ v.Removable reach a) added
  keptUpdated : List.Forall₂ (Action.BoundOnce reach.orphans)
    (v.mutation.actionsUpdated.filter fun a => ¬ v.Removable reach a) updated
  synthetic : ∀ a ∈ made, a.isSynthetic = true
    ∧ (∀ b ∈ added ++ updated, b.id ≠ a.id)
    ∧ ∀ b ∈ v.priorActions, b.id ≠ a.id
  distinct : (made.map (·.id)).Nodup
  componentsAdded :
    out.componentsAdded = v.mutation.componentsAdded.map fun c =>
      { c with events := c.events.filter fun e =>
        e.actionId.all (· ∉ v.removed reach) }
  componentsUpdated :
    out.componentsUpdated = v.mutation.componentsUpdated.map fun c =>
      { c with events := c.events.filter fun e =>
        e.actionId.all (· ∉ v.removed reach) }
  pagesAdded : List.Forall₂ (fun p p' => Page.Rewired reach.orphans
      { p with events := p.events.filter fun e =>
        e.actionId ∉ v.removed reach } p')
    v.mutation.pagesAdded out.pagesAdded
  pagesUpdated : ∃ kept, out.pagesUpdated = kept ++ carried
    ∧ List.Forall₂ (fun p p' => Page.Rewired reach.orphans
      { p with events := p.events.filter fun e =>
        e.actionId ∉ v.removed reach } p')
    v.mutation.pagesUpdated kept
  carried : ∀ p' ∈ carried, ∃ p ∈ v.priorPages, p.Rewired reach.orphans p'
  stateAdded : out.stateAdded = v.mutation.stateAdded
  stateUpdated : out.stateUpdated = v.mutation.stateUpdated
  containerPropsUpdated :
    out.containerPropsUpdated = v.mutation.containerPropsUpdated

variable {v : View} {reach : Reachability} {config : Configuration}

theorem mem_removed {id : String} :
    id ∈ v.removed reach ↔ ∃ a ∈ v.mutation.actions, v.Removable reach a
      ∧ a.id = id := by
  simp [removed, and_assoc]

theorem mem_redundantIds {id : String} :
    id ∈ v.redundantIds reach ↔ id ∈ v.removed reach := by
  rw [redundantIds, KeySet.mem_ofList, removed]
  simp only [List.mem_map, List.mem_filter, isRedundant_iff, decide_eq_true_eq]

/-- Where ids differ, an action is removed for itself. -/
theorem mem_redundantIds_iff
    (hnodup : (v.mutation.actions.map (·.id)).Nodup) {a : Action}
    (ha : a ∈ v.mutation.actions) :
    a.id ∈ v.redundantIds reach ↔ v.Removable reach a := by
  rw [mem_redundantIds, mem_removed]
  constructor
  · rintro ⟨b, hb, hremovable, hid⟩
    rwa [List.inj_on_of_nodup_map hnodup hb ha hid] at hremovable
  · exact fun hremovable => ⟨a, ha, hremovable, rfl⟩

/-- Looking up ids gives an action for each that there is, in their order. -/
theorem map_id_filterMap_action? (m : Mutation) (ids : List String) :
    (ids.filterMap m.action?).map (·.id)
      = ids.filter (· ∈ m.actions.map (·.id)) := by
  induction ids with
  | nil => rfl
  | cons id ids ih =>
    cases ha : m.action? id with
    | none =>
      have hid : id ∉ m.actions.map (·.id) := find?_key_eq_none.1 ha
      rw [List.filterMap_cons_none ha,
        List.filter_cons_of_neg (by simpa using hid), ih]
    | some a =>
      have hid : id ∈ m.actions.map (·.id) :=
        Mutation.action?_isSome.1 (Option.isSome_of_eq_some ha)
      have haid : a.id = id := by simpa using List.find?_some ha
      rw [List.filterMap_cons_some ha,
        List.filter_cons_of_pos (by simpa using hid), List.map_cons, haid, ih]

/-- Plans are for orphans, in their order. -/
theorem sublist_boundPlans (v : View) (reach : Reachability) :
    ((v.boundPlans reach).map (·.1)).Sublist reach.orphans := by
  rw [boundPlans, bindingPlans, List.map_map]
  show ((List.filterMap _ _).map Action.id).Sublist _
  rw [map_id_filterMap_action?]
  exact List.filter_sublist.trans List.filter_sublist

theorem nodup_orphans (v : View) : v.reachability.orphans.Nodup :=
  nodup_distinctBy_id _

/-- What is left of the actions once some are removed. -/
theorem filter_redundant (hnodup : (v.mutation.actions.map (·.id)).Nodup)
    {actions : List Action} (hsub : actions ⊆ v.mutation.actions) :
    (actions.filter fun a => !(v.redundantIds reach).members.contains a.id)
      = actions.filter fun a => ¬ v.Removable reach a := by
  refine List.filter_congr fun a ha => ?_
  have hiff : a.id ∈ v.redundantIds reach ↔ v.Removable reach a :=
    mem_redundantIds_iff hnodup (hsub ha)
  by_cases hremovable : v.Removable reach a
  · simp [hremovable, hiff.2 hremovable]
  · simp [hremovable, mt hiff.1 hremovable]

theorem dropEvents_component (c : Component) :
    c.dropEvents (v.redundantIds reach)
    = { c with events := c.events.filter fun e =>
      e.actionId.all (· ∉ v.removed reach) } := by
  rw [Component.dropEvents]
  congr 1
  refine List.filter_congr fun e _ => ?_
  cases e.actionId with
  | none => rfl
  | some id => simp [← mem_redundantIds]

theorem dropEvents_page (p : Page) :
    p.dropEvents (v.redundantIds reach)
      = { p with
          events := p.events.filter fun e =>
            e.actionId ∉ v.removed reach } := by
  rw [Page.dropEvents]
  congr 1
  refine List.filter_congr fun e _ => ?_
  simp [← mem_redundantIds]

theorem id_mem_actionIds_of_prior {a : Action}
    (ha : a ∈ (v.prior.map Snapshot.actions).getD []) : a.id ∈ v.actionIds := by
  rw [mem_actionIds, action?_eq, Option.isSome_or, Bool.or_eq_true]
  exact .inr (isSome_find?_iff.2 (List.mem_map_of_mem ha))

/-- What repair makes says so. -/
theorem Synthesis.isSynthetic {normalizers mirrors : List Action}
    (h : v.Synthesis config normalizers mirrors) {a : Action}
    (ha : a ∈ normalizers ++ mirrors) :
    a.isSynthetic = true := by
  rcases h.made ha with ⟨o, hmade, _⟩ | ⟨p, hmade, _⟩ <;> rw [hmade] <;> rfl

/-- Repair removes only what was made by an earlier repair, cannot run and
writes nothing but status and error keys that the executor keeps. An action that
survives stays in its list and in its place, and differs by one trigger at most,
which only orphans get. Events go only with the action that they name, pages get
loads of orphans, and new actions stand behind the others under ids of their
own. Nothing else differs. -/
theorem frame_repair (m : Mutation) (prior : Option Snapshot)
    (config : Configuration) (hnodup : (m.actions.map (·.id)).Nodup) :
    let v : View := ⟨m, prior⟩
    ∃ added updated made carried, v.Frame v.reachability
      (v.repair v.reachability config).mutation added updated made carried := by
  intro v
  obtain ⟨settled, normalizers, mirrors, hsettled, _, hsynthesis, hview⟩ :=
    exists_repair v v.reachability config
  -- between the removal and the additions, orphans are bound and pages wired
  have hplans := sublist_boundPlans v v.reachability
  have hbound :
      (v.removeActions (v.redundantIds v.reachability)).mutation.Rebound
        (Action.BoundOnce v.reachability.orphans)
        v.reachability.orphans v.priorPages
      settled.mutation := by
    rw [hsettled, view_settle]
    exact (rebound_bindAll _ _ (hplans.nodup v.nodup_orphans) hplans.subset).imp
      fun _ _ h => h.mono hplans.subset
  have hout : (v.repair v.reachability config).mutation
      = (settled.addActions (normalizers ++ mirrors)).mutation :=
    congrArg View.mutation hview
  -- additions only append to the actions, so the rest of the mutation is that
  -- of the bound one
  obtain ⟨kept, carried, hpages, hkept, hcarried⟩ := hbound.pagesUpdated
  refine ⟨settled.mutation.actionsAdded, settled.mutation.actionsUpdated,
    normalizers ++ mirrors, carried, ?_⟩
  rw [hout]
  exact {
    actionsAdded := rfl
    actionsUpdated := rfl
    -- where ids differ, to remove by id is to remove what may be removed
    keptAdded := by
      rw [← filter_redundant hnodup (List.subset_append_left _ _)]
      exact hbound.actionsAdded
    keptUpdated := by
      rw [← filter_redundant hnodup (List.subset_append_right _ _)]
      exact hbound.actionsUpdated
    -- an id is chosen apart from those of the mutation and of the snapshot
    synthetic := fun a ha => by
      have hfresh := hsynthesis.fresh.not_mem a ha
      refine ⟨hsynthesis.isSynthetic ha, fun b hb hid => hfresh ?_,
        fun b hb hid => hfresh ?_⟩
      · exact hid ▸ id_mem_actionIds hb
      · have hprior : settled.prior = prior := congrArg View.prior hsettled
        exact hid ▸ id_mem_actionIds_of_prior (hprior ▸ hb)
    distinct := hsynthesis.fresh.nodup
    -- events go by the ids that are removed
    componentsAdded := by
      simp only [← dropEvents_component]
      exact hbound.componentsAdded
    componentsUpdated := by
      simp only [← dropEvents_component]
      exact hbound.componentsUpdated
    pagesAdded := by
      simp only [← dropEvents_page]
      exact List.forall₂_map_left_iff.1 hbound.pagesAdded
    -- the carried pages stand behind those that the mutation already updated
    pagesUpdated := by
      simp only [← dropEvents_page]
      exact ⟨kept, hpages, List.forall₂_map_left_iff.1 hkept⟩
    carried := hcarried
    stateAdded := hbound.stateAdded
    stateUpdated := hbound.stateUpdated
    containerPropsUpdated := hbound.containerPropsUpdated }

/-- Two calls that nothing runs over a page of the snapshot, a mirror left by an
earlier repair, and an action that refers to the result of one of the calls. A
component that is shadowed still dispatches to the mirror. -/
def orderDesk : View where
  mutation := { Mutation.empty with
    componentsAdded := [⟨"orders", .select, [], none, [], [], none⟩]
    componentsUpdated := [⟨"orders", .select, [], none,
      [⟨"click", some "mirror_orders_status", none, []⟩,
        ⟨"change", some "show", none, []⟩], [],
      none⟩]
    actionsAdded := [
      { Action.bare "fetch_orders" .integrationCall with
        config := [(ConfigKey.assignTo, .string "orders")] },
      { Action.synthetic "mirror_orders_status" .workflow mirrorSemantic with
        steps := [Step.copy "ordersStatus" "loadStatus"] },
      { Action.bare "fetch_totals" .integrationCall with
        config := [(ConfigKey.assignTo, .string "totals")] }]
    actionsUpdated := [
      { Action.bare "show" .workflow with
        config := [("text", .string "\x7b\x7bstate.orders\x7d\x7d")] }] }
  prior := some { Snapshot.empty with
    pages := [⟨"home", none, none, ["orders"], []⟩]
    actions := [{ Action.bare "normalize_totals" .workflow with
      triggeredBy := [.lifecycle Lifecycle.appStart] }] }

/-- The mirror is removed, the orphans are bound, the page is carried over, and
a normalizer is made under an id that the snapshot does not have. -/
theorem frame_repair_orderDesk :
    (orderDesk.mutation.actions.map (·.id)).Nodup
      ∧ orderDesk.removed orderDesk.reachability = ["mirror_orders_status"]
      ∧ (orderDesk.repair orderDesk.reachability
        .default).mutation.actionsAdded.map (·.id)
        = ["fetch_orders", "fetch_totals", "normalize_totals_2"]
      ∧ (orderDesk.repair orderDesk.reachability .default).mutation.pagesUpdated
        = [⟨"home", none, none, ["orders"],
          [⟨Lifecycle.pageLoad, "fetch_orders"⟩,
            ⟨Lifecycle.pageLoad, "fetch_totals"⟩]⟩]
      ∧ ∃ added updated made carried, orderDesk.Frame orderDesk.reachability
        (orderDesk.repair orderDesk.reachability .default).mutation added
        updated made carried := by
  have hnodup : (orderDesk.mutation.actions.map (·.id)).Nodup := by decide
  refine ⟨hnodup, by decide +kernel, by decide +kernel, by decide +kernel, ?_⟩
  exact frame_repair orderDesk.mutation orderDesk.prior .default hnodup

end View

end IntentGraph
