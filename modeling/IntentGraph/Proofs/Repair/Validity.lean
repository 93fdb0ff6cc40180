import IntentGraph.Proofs.Repair.Closure
import IntentGraph.Proofs.Validation

/-!
# Repair keeps a view admissible

Each stage of repair keeps what the structural rules ask for. No stage touches
the components, what becomes of an action is sound on its own
(`View.ActionSound`), and events run what stays (`View.Admissible.transfer` puts
these together).

* A removal could take the target of an event away or let an action of the
  snapshot come forth, and a rewiring carries pages of the snapshot into the
  mutation, where rules apply to them. `View.Mendable` is what the repair needs
  of the components and the snapshot.
* `View.Admissible.repaired`: a mendable view that is admissible is admissible
  after repair.
-/

namespace IntentGraph.View

variable {v v' : View} {a a' : Action} {ids : List String}

/-! ## Sound actions -/

/-- What the structural rules ask of a single action. -/
structure ActionSound (v : View) (a : Action) : Prop where
  kind : a.kind.unknown? = none
  trigger : ∀ t ∈ a.triggeredBy, t.raw? = none
  step : ∀ s ∈ a.steps, s.raw? = none
  authority : a.kind = .internal → v.authorityBreaches a = ∅

theorem Admissible.actionSound (h : v.Admissible)
    (ha : a ∈ v.mutation.actions) :
    v.ActionSound a :=
  ⟨h.actionKind a ha, h.payloads.trigger a ha, h.payloads.step a ha,
    h.authority a ha⟩

/-- With fewer keys of integrations an action stays sound. -/
theorem ActionSound.mono (h : v.ActionSound a)
    (houtputs : ∀ key ∈ v'.integrationOutputs, key ∈ v.integrationOutputs) :
    v'.ActionSound a where
  kind := h.kind
  trigger := h.trigger
  step := h.step
  authority hkind := by
    obtain ⟨hwrites, hrest⟩ := authorityBreaches_eq_empty.1 (h.authority hkind)
    exact authorityBreaches_eq_empty.2
      ⟨fun key hkey hout => hwrites key hkey (houtputs key hout), hrest⟩

/-- Recognized triggers make no difference. -/
theorem ActionSound.retriggered (h : v.ActionSound a)
    (hr : a.Retriggered ids a') :
    v.ActionSound a' := by
  obtain ⟨triggers, rfl, hknown, _⟩ := hr
  refine ⟨h.kind, fun t ht => ?_, h.step, h.authority⟩
  exact (List.mem_append.1 ht).elim (h.trigger t) (hknown t)

/-- An action that repair makes has nothing in its configuration but what it is
meant for and who made it. -/
theorem get?_synthetic (id : String) (kind : ActionKind) (semantic : String)
    {key : String} (hsemantic : key ≠ ConfigKey.semantic)
    (hsynthetic : key ≠ ConfigKey.synthetic) :
    (Action.synthetic id kind semantic).config.get? key = none := by
  have h : (key == ConfigKey.semantic) = false := by simpa using hsemantic
  have h' : (key == ConfigKey.synthetic) = false := by simpa using hsynthetic
  simp [Fields.get?, Action.synthetic, List.lookup_cons, h, h']

/-- A normalizer writes nothing from a literal: what it writes it copies. -/
theorem literalWrites_normalizer (o : UnreadOutput) (id : String) :
    (o.normalizer id).literalWrites = ∅ := by
  have hnone : ∀ key : String, key ≠ ConfigKey.semantic →
      key ≠ ConfigKey.synthetic →
      (o.normalizer id).config.get? key = none :=
    fun _ => get?_synthetic id .internal normalizerSemantic
  have hassign : (o.normalizer id).assignedKey? = none := by
    rw [Action.assignedKey?, Action.configText?,
      hnone _ (by decide) (by decide)]
    rfl
  have hstate : (o.normalizer id).configText? ConfigKey.stateKey = none := by
    rw [Action.configText?, hnone _ (by decide) (by decide)]
    rfl
  have hupdates : (o.normalizer id).updateKeys = [] := by
    rw [Action.updateKeys, hnone _ (by decide) (by decide)]
  have hsteps : (o.normalizer id).steps.filterMap Step.literalKey? = [] := rfl
  rw [Action.literalWrites, hassign, hstate, hupdates, hsteps]
  split <;> rfl

/-- A normalizer is sound. -/
theorem actionSound_normalizer (v : View) (o : UnreadOutput) (id : String) :
    v.ActionSound (o.normalizer id) where
  kind := rfl
  trigger t ht := by
    rw [List.mem_singleton.1 ht]
    rfl
  step s hs := by
    rw [List.mem_singleton.1 hs]
    rfl
  authority _ := by
    have hupdates : listUpdates (o.normalizer id) = [] := by
      have hnone : (o.normalizer id).config.get? ConfigKey.updates = none :=
        get?_synthetic id .internal normalizerSemantic (by decide) (by decide)
      rw [listUpdates, hnone]
    rw [authorityBreaches_eq_empty, literalWrites_normalizer]
    exact ⟨by simp, hupdates, rfl⟩

/-- A mirror is no internal action. -/
theorem actionSound_mirror (v : View) (p : MirrorPlan) (id : String) :
    v.ActionSound (p.mirror id) where
  kind := rfl
  trigger t ht := by
    rcases List.mem_pair.1 ht with rfl | rfl <;> rfl
  step s hs := by
    rcases List.mem_pair.1 hs with rfl | rfl <;> rfl
  authority hkind := by cases hkind

/-! ## Changes that keep a view admissible -/

/-- The components of the mutation and those of the view are the same. -/
structure SameComponents (v v' : View) : Prop where
  mutation : v'.mutation.components = v.mutation.components
  view : v'.components = v.components

/-- The rules on lists and selects look at nothing but components. -/
theorem BindingsSound.of_same (h : v.BindingsSound)
    (same : SameComponents v v') :
    v'.BindingsSound := by
  have hlists : v'.lists = v.lists := by rw [lists, lists, same.mutation]
  have hselects :
      v'.selects = v.selects := by rw [selects, selects, same.mutation]
  have hclick : v'.itemHandlesClick = v.itemHandlesClick := by
    funext c
    simp only [itemHandlesClick, component?, same.view]
  refine ⟨?_, ?_, ?_, ?_, ?_, ?_⟩
  · rw [listChildrenViolations, hlists]
    exact h.listChildren
  · rw [renderModelViolations, hlists]
    exact h.renderModel
  · rw [itemClickViolations, hlists, hclick]
    exact h.itemClick
  · rw [disabledKeyViolations, same.mutation]
    exact h.disabledKey
  · rw [bindingViolations, hselects]
    exact h.binding
  · rw [optionViolations, hselects]
    exact h.option

/-- What a change has to keep: the components and what their events run, the
listings of pages, sound actions under different ids, and events of pages that
run something. -/
theorem Admissible.transfer (h : v.Admissible) (same : SameComponents v v')
    (hrefs : ∀ c ∈ v.mutation.components, ∀ id ∈ c.actionRefs,
      id ∈ v'.actionIds)
    (hlisted : ∀ p' ∈ v'.pages, ∃ p ∈ v.pages,
      p'.id = p.id ∧ p'.components = p.components)
    (hsound : ∀ a ∈ v'.mutation.actions, v'.ActionSound a)
    (hdistinct : (v'.mutation.actions.map (·.id)).Nodup)
    (hpages : ∀ p ∈ v'.mutation.pages, ∀ e ∈ p.events,
      Lifecycle.isEvent e.kind = true ∧ e.actionId ∈ v'.actionIds) :
        v'.Admissible where
  componentKind := by
    rw [same.mutation]
    exact h.componentKind
  actionKind a ha := (hsound a ha).kind
  payloads := by
    refine ⟨fun a ha => (hsound a ha).trigger,
      fun a ha => (hsound a ha).step, ?_⟩
    rw [same.mutation]
    exact h.payloads.dataSource
  distinct := hdistinct
  lifecycle p hp e he := (hpages p hp e he).1
  events := by
    refine ⟨?_, fun p hp e he => (hpages p hp e he).2⟩
    rw [same.mutation]
    exact hrefs
  forest := h.forest.of_pages same.view hlisted
  bindings := h.bindings.of_same same
  authority a ha := (hsound a ha).authority

/-- Every event of a page of the view is a lifecycle event and runs an action of
the view. -/
def PagesWired (v : View) : Prop :=
  ∀ p ∈ v.pages, ∀ e ∈ p.events, Lifecycle.isEvent e.kind = true
    ∧ e.actionId ∈ v.actionIds

/-! ## Removal -/

section removal

/-- What stays of an id after a removal. -/
theorem mem_actionIds_removeActions {id : String} (hid : id ∈ v.actionIds)
    (hkept : id ∉ ids) :
    id ∈ (v.removeActions ids).actionIds := by
  rw [mem_actionIds, action?_removeActions hkept]
  exact mem_actionIds.1 hid

/-- No event of the view runs what is removed when that was out of reach. -/
theorem not_mem_of_event (hroots : ∀ id ∈ ids, id ∉ v.roots) {id : String}
    (hevent : id ∈ v.eventActionRefs) (hid : id ∈ v.actionIds) : id ∉ ids :=
  fun h => hroots id h (mem_roots.2 ⟨hid, .inl hevent⟩)

theorem PagesWired.removeActions (hwired : v.PagesWired)
    (hroots : ∀ id ∈ ids, id ∉ v.roots) :
    (v.removeActions ids).PagesWired := by
  intro p' hp' e he
  obtain ⟨p, hp, hdrop⟩ :=
    exists_of_rel_right (rel_page?_removeActions v ids p'.id) (mem_pages.1 hp')
  have hmem : p ∈ v.pages := mem_pages_of_page? hp
  have hold : e ∈ p.events := by
    rcases hdrop with rfl | rfl
    · exact he
    · exact (Page.mem_events_dropEvents.1 he).1
  obtain ⟨hkind, hid⟩ := hwired p hmem e hold
  have hevent : e.actionId ∈ v.eventActionRefs :=
    mem_eventActionRefs.2 (.inr ⟨p, hmem, e, hold, rfl⟩)
  exact ⟨hkind,
    mem_actionIds_removeActions hid (not_mem_of_event hroots hevent hid)⟩

/-- With different ids every component of the mutation is one of the view. -/
theorem mem_components_of_distinct
    (hdistinct : (v.mutation.components.map (·.id)).Nodup) {c : Component}
    (hc : c ∈ v.mutation.components) : c ∈ v.components := by
  have hfound : v.mutation.component? c.id = some c :=
    find?_eq_some_of_nodup hdistinct hc
  rw [mem_components, component?_eq, hfound, Option.some_or]

/-- Events of components that are in the view run what stays. -/
theorem not_mem_of_actionRef (h : v.EventsResolve)
    (hdistinct : (v.mutation.components.map (·.id)).Nodup)
    (hroots : ∀ id ∈ ids, id ∉ v.roots) {c : Component}
    (hc : c ∈ v.mutation.components) {id : String} (hid : id ∈ c.actionRefs) :
    id ∉ ids := by
  have hmem := mem_components_of_distinct hdistinct hc
  exact not_mem_of_event hroots (mem_eventActionRefs.2 (.inl ⟨c, hmem, hid⟩))
    (h.component c hc id hid)

theorem SameComponents.removeActions (h : v.EventsResolve)
    (hdistinct : (v.mutation.components.map (·.id)).Nodup)
    (hroots : ∀ id ∈ ids, id ∉ v.roots) :
    SameComponents v (v.removeActions ids) := by
  have hmutation :
      (v.removeActions ids).mutation.components = v.mutation.components := by
    rw [View.removeActions, Mutation.components_removeActions]
    have hself :
        ∀ c ∈ v.mutation.components, c.dropEvents ids = id c := fun c hc =>
          Component.dropEvents_eq_self fun id hid =>
            not_mem_of_actionRef h hdistinct hroots hc hid
    rw [List.map_congr_left hself, List.map_id]
  refine ⟨hmutation, ?_⟩
  rw [components, components, hmutation]
  rfl

/-- No action of the snapshot comes forth when none has an id that is
removed. -/
theorem mem_actions_of_removeActions (hprior : ∀ a ∈ v.priorActions, a.id ∉ ids)
    (ha : a ∈ (v.removeActions ids).actions) : a ∈ v.actions := by
  have hfound := mem_actions.1 ha
  by_cases hid : a.id ∈ ids
  · -- the mutation has nothing of this id any more: the action is one of the
    -- snapshot
    rw [action?_eq, View.removeActions,
      Mutation.action?_removeActions_of_mem hid, Option.none_or] at hfound
    exact absurd hid (hprior a (List.mem_of_find?_eq_some hfound))
  · rw [action?_removeActions hid] at hfound
    exact mem_actions.2 hfound

/-- A removal of actions that are out of reach keeps a view admissible. -/
theorem Admissible.removeActions (h : v.Admissible)
    (hdistinct : (v.mutation.components.map (·.id)).Nodup)
    (hroots : ∀ id ∈ ids, id ∉ v.roots)
    (hprior : ∀ a ∈ v.priorActions, a.id ∉ ids) :
    (v.removeActions ids).Admissible := by
  refine h.transfer (.removeActions h.events hdistinct hroots) ?_ ?_ ?_ ?_ ?_
  · intro c hc id hid
    exact mem_actionIds_removeActions (h.events.component c hc id hid)
      (not_mem_of_actionRef h.events hdistinct hroots hc hid)
  · intro p' hp'
    obtain ⟨p, hp, hdrop⟩ :=
      exists_of_rel_right (rel_page?_removeActions v ids p'.id)
        (mem_pages.1 hp')
    refine ⟨p, mem_pages_of_page? hp, ?_⟩
    rcases hdrop with rfl | rfl <;> exact ⟨rfl, rfl⟩
  · -- no call comes forth, so no key is an integration's that was not before
    intro a ha
    refine (h.actionSound (Mutation.mem_actions_removeActions.1 ha).1).mono
      fun key hkey => ?_
    obtain ⟨b, hb, hcall⟩ := mem_integrationOutputs.1 hkey
    exact mem_integrationOutputs.2
      ⟨b, mem_actions_of_removeActions hprior hb, hcall⟩
  · rw [View.removeActions, Mutation.actions_removeActions]
    exact h.distinct.sublist (List.filter_sublist.map _)
  · intro p hp e he
    rw [View.removeActions, Mutation.pages_removeActions] at hp
    obtain ⟨q, hq, rfl⟩ := List.mem_map.1 hp
    obtain ⟨hold, hkept⟩ := Page.mem_events_dropEvents.1 he
    exact ⟨h.lifecycle q hq e hold,
      mem_actionIds_removeActions (h.events.page q hq e hold) hkept⟩

end removal

/-! ## Rewiring -/

/-- A rewiring of actions that there are keeps a view admissible. -/
theorem Admissible.rewires (h : v.Admissible) (hwired : v.PagesWired)
    (hr : Rewires ids v v') (hids : ∀ id ∈ ids, id ∈ v.actionIds) :
    v'.Admissible := by
  refine h.transfer ⟨hr.components, hr.components_eq⟩ ?_ ?_ ?_ ?_ ?_
  · intro c hc id hid
    exact hr.mem_actionIds.2 (h.events.component c hc id hid)
  · intro p' hp'
    obtain ⟨p, hp, hpp'⟩ :=
      exists_of_rel_right (hr.page p'.id) (mem_pages.1 hp')
    exact ⟨p, mem_pages_of_page? hp, hpp'.id_eq, hpp'.components_eq⟩
  · intro a' ha'
    obtain ⟨a, ha, haa'⟩ := mem_right_of_forall₂ hr.actions ha'
    refine ((h.actionSound ha).retriggered haa').mono fun key hkey => ?_
    obtain ⟨b', hb', hcall⟩ := mem_integrationOutputs.1 hkey
    obtain ⟨b, hb, hbb'⟩ :=
      exists_of_rel_right (hr.action? b'.id) (mem_actions.1 hb')
    obtain ⟨_, rfl, _⟩ := hbb'
    exact mem_integrationOutputs.2 ⟨b, mem_actions_of_action? hb, hcall⟩
  · rw [hr.map_id]
    exact h.distinct
  · intro p' hp' e he
    obtain ⟨p, hp, hpp'⟩ := hr.mutationPage p' hp'
    rcases hpp'.event he with hold | ⟨hload, hid⟩
    · rcases hp with hp | hp
      · exact ⟨h.lifecycle p hp e hold,
          hr.mem_actionIds.2 (h.events.page p hp e hold)⟩
      · -- the page was carried over from the snapshot
        obtain ⟨hkind, hid⟩ := hwired p hp e hold
        exact ⟨hkind, hr.mem_actionIds.2 hid⟩
    · rw [hload]
      exact ⟨rfl, hr.mem_actionIds.2 (hids _ hid)⟩

/-! ## Addition -/

/-- An addition of sound actions that call no integration keeps a view
admissible. -/
theorem Admissible.addActions {added : List Action} (h : v.Admissible)
    (fresh : v.Fresh added)
    (hsound : ∀ a ∈ added, (v.addActions added).ActionSound a)
    (hkind : ∀ a ∈ added, a.kind ≠ .integrationCall) :
    (v.addActions added).Admissible := by
  refine h.transfer ⟨rfl, rfl⟩ ?_ ?_ ?_ ?_ ?_
  · intro c hc id hid
    exact (mem_actionIds_addActions fresh).2
      (.inl (h.events.component c hc id hid))
  · exact fun p hp => ⟨p, hp, rfl, rfl⟩
  · intro a ha
    rcases mem_mutation_addActions.1 ha with hold | hnew
    · refine (h.actionSound hold).mono fun key hkey => ?_
      obtain ⟨b, hb, hcall, hassign⟩ := mem_integrationOutputs.1 hkey
      rcases (mem_actions_addActions fresh).1 hb with hb | hb
      · exact mem_integrationOutputs.2 ⟨b, hb, hcall, hassign⟩
      · exact absurd hcall (hkind b hb)
    · exact hsound a hnew
  · exact fresh.nodup_addActions h.distinct
  · intro p hp e he
    exact ⟨h.lifecycle p hp e he,
      (mem_actionIds_addActions fresh).2 (.inl (h.events.page p hp e he))⟩

/-! ## Repair -/

/-- What repair asks of a view to keep it admissible: that components have
different ids, that the events of the snapshot's pages are lifecycle events that
run something, and that no action of the snapshot is hidden by one that was made
by repair. -/
structure Mendable (v : View) : Prop where
  distinct : (v.mutation.components.map (·.id)).Nodup
  lifecycle : ∀ p ∈ v.priorPages, ∀ e ∈ p.events,
    Lifecycle.isEvent e.kind = true
  target : ∀ p ∈ v.priorPages, ∀ e ∈ p.events, e.actionId ∈ v.actionIds
  unhidden : ∀ a ∈ v.priorActions, ∀ b ∈ v.mutation.actions,
    b.isSynthetic = true → a.id ≠ b.id

theorem Admissible.pagesWired (h : v.Admissible) (m : v.Mendable) :
    v.PagesWired := by
  intro p hp e he
  rcases List.mem_append.1 (mem_of_mem_distinctBy hp) with hp | hp
  · exact ⟨h.lifecycle p hp e he, h.events.page p hp e he⟩
  · exact ⟨m.lifecycle p hp e he, m.target p hp e he⟩

/-- What is removed was made by an earlier repair. -/
theorem Mendable.not_mem_redundantIds (m : v.Mendable) (reach : Reachability)
    (ha : a ∈ v.priorActions) : a.id ∉ v.redundantIds reach := by
  intro hid
  rw [redundantIds, KeySet.mem_ofList, List.mem_map] at hid
  obtain ⟨b, hb, hba⟩ := hid
  obtain ⟨hmem, hredundant⟩ := List.mem_filter.1 hb
  simp only [isRedundant, Bool.and_eq_true] at hredundant
  exact m.unhidden a ha b hmem hredundant.1.1.1 hba.symm

/-- What is bound is an action that was left. -/
theorem mem_actionIds_of_boundPlans {reach : Reachability} {id : String}
    (h : id ∈ (v.boundPlans reach).map (·.1)) :
    id ∈ (v.removeActions (v.redundantIds reach)).actionIds := by
  obtain ⟨plan, hplan, rfl⟩ := List.mem_map.1 h
  obtain ⟨b, hb, rfl⟩ := exists_of_mem_boundPlans hplan
  exact id_mem_actionIds hb

/-- Repair keeps a view admissible. -/
theorem Admissible.repaired (h : v.Admissible) (m : v.Mendable)
    (config : Configuration) :
    (v.repaired v.reachability config).Admissible := by
  obtain ⟨settled, normalizers, mirrors, _, hrewires, hsynthesis, hview⟩ :=
    exists_repair v v.reachability config
  have hroots : ∀ id ∈ v.redundantIds v.reachability, id ∉ v.roots :=
    fun _ => not_mem_roots_of_redundant
  have hremoved :=
    h.removeActions m.distinct hroots fun a => m.not_mem_redundantIds _
  have hsettled : settled.Admissible :=
    hremoved.rewires ((h.pagesWired m).removeActions hroots) hrewires
      fun _ => mem_actionIds_of_boundPlans
  rw [hview]
  refine hsettled.addActions hsynthesis.fresh (fun a ha => ?_) fun a =>
    hsynthesis.kind_ne
  rcases hsynthesis.made ha with ⟨o, hmade, _⟩ | ⟨p, hmade, _⟩
  · rw [hmade]
    exact actionSound_normalizer _ o a.id
  · rw [hmade]
    exact actionSound_mirror _ p a.id

end IntentGraph.View
