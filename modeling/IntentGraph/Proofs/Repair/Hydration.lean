import IntentGraph.Proofs.Repair.Frame
import IntentGraph.Proofs.Repair.Loop

/-!
# Calls that repair loads with pages

A call that nothing runs, that stays and that refers to no key is idle
(`View.IdleCall`). Repair plans all bindings on the view as it comes, and
carries them out one after the other while pages of the snapshot move into the
mutation. What counts is what an id stands for, and that every binding changes
in a known way:

* `View.page?_bindAll`: a page of the view is wired to the calls planned for it,
  in their order, wherever it stands;
* `Mutation.Carries`: the pages updated gain the pages that calls are planned
  for and that only the snapshot has, each once;
* `View.action?_bindAll`: an action gets the trigger that is planned for it.

So idle calls run on the load of the page that is chosen for them:
`View.hydrated_repair`.
-/

namespace IntentGraph

/-! ## Wiring a page to several calls -/

/-- The page with the loads of some calls added, one after the other. -/
def Page.wireLoads (ids : List String) (p : Page) : Page :=
  ids.foldl (fun p id => p.wire Lifecycle.pageLoad id) p

theorem Page.wires_eq_false_iff {p : Page} {event id : String} :
    p.wires event id = false ↔ ⟨event, id⟩ ∉ p.events := by
  simp [wires]

/-- Calls that a page does not load yet are loaded after all else. -/
theorem Page.wireLoads_eq {ids : List String} (hnodup : ids.Nodup) {p : Page}
    (hfresh : ∀ id ∈ ids, p.wires Lifecycle.pageLoad id = false) :
    p.wireLoads ids = { p with
      events := p.events ++ ids.map (⟨Lifecycle.pageLoad, ·⟩) } := by
  induction ids generalizing p with
  | nil => simp [wireLoads]
  | cons id ids ih =>
    obtain ⟨hnew, hrest⟩ := List.nodup_cons.1 hnodup
    have hwire : p.wire Lifecycle.pageLoad id
        = { p with events := p.events ++ [⟨Lifecycle.pageLoad, id⟩] } := by
      rw [wire, hfresh id List.mem_cons_self]
      rfl
    have hfresh' : ∀ id' ∈ ids,
        (p.wire Lifecycle.pageLoad id).wires Lifecycle.pageLoad
          id' = false := by
      intro id' hid'
      have hne : id' ≠ id := fun heq => hnew (heq ▸ hid')
      have hold := hfresh id' (List.mem_cons_of_mem id hid')
      rw [wires_eq_false_iff] at hold ⊢
      rw [hwire]
      simp [hold, hne]
    show (p.wire Lifecycle.pageLoad id).wireLoads ids = _
    rw [ih hrest hfresh', hwire]
    simp

/-! ## What the id of a page stands for -/

namespace View

variable {prior : Option Snapshot}

/-- A wired page stands where it stood, in the mutation or in the snapshot. -/
theorem page?_wirePageLoad (m : Mutation) (page action q : String) :
    (View.mk (m.wirePageLoad prior page action) prior).page? q
      = ((View.mk m prior).page? q).map fun p =>
        if page = q then p.wire Lifecycle.pageLoad action else p := by
  have hid : ∀ p : Page, (p.wire Lifecycle.pageLoad action).id = p.id :=
    Page.id_wire Lifecycle.pageLoad action
  rcases wirePageLoad_cases m prior page action
    with h | ⟨p, hnone, hp, heq⟩ | ⟨hnone, heq⟩
  · rw [page?_eq, page?_eq]
    by_cases hq : page = q
    · subst hq
      obtain ⟨p, hp, hp'⟩ := Mutation.page?_modifyPage? hid h
      simp only [hp, hp', Option.some_or, Option.map_some, if_true]
    · simp only [Mutation.page?_modifyPage?_of_ne hid (Ne.symm hq) h, if_neg hq,
        Option.map_id']
      rfl
  · have hpage : p.id = page := by simpa using List.find?_some hp
    rw [heq, page?_eq, page?_eq, Mutation.page?, pages_carry, List.find?_append,
      List.find?_singleton, hid, hpage]
    by_cases hq : page = q
    · -- the carried page now stands where the page of the snapshot stood
      subst hq
      have habsent : m.pages.find? (·.id == page) = none := hnone
      simp only [hnone, habsent, hp, beq_self_eq_true, if_true, Option.none_or,
        Option.some_or, Option.map_some]
    · have hne : (page == q) = false := by simpa using hq
      simp only [hne, if_neg hq, Bool.false_eq_true, if_false, Option.or_none,
        Option.map_id']
      rfl
  · by_cases hq : page = q
    · subst hq
      rw [heq, hnone, Option.map_none]
    · simp only [heq, if_neg hq, Option.map_id']

/-- A binding wires the page that it names, if it names one. -/
theorem page?_bind (m : Mutation) (reason id : String) (b : Binding)
    (q : String) :
    (View.mk (m.bind prior reason id b) prior).page? q
      = ((View.mk m prior).page? q).map fun p =>
        if b = .pageLoad q then p.wire Lifecycle.pageLoad id else p := by
  have hbound :
      (View.mk ((m.modifyAction? id
        (Action.addTrigger (b.trigger reason))).getD m)
      prior).page? q = (View.mk m prior).page? q := by
    obtain ⟨hadded, hupdated⟩ := pages_addTrigger m id (b.trigger reason)
    rw [page?_eq, page?_eq, Mutation.page?, Mutation.pages, hadded, hupdated]
    rfl
  cases b with
  | pageLoad page =>
    simp only [Mutation.bind, page?_wirePageLoad, hbound,
      Binding.pageLoad.injEq]
  | stateChange key => simpa [Mutation.bind] using hbound
  | safetyNet => simpa [Mutation.bind] using hbound

/-- The ids of the calls that plans load with a page. -/
def plannedLoads (plans : List (String × Binding)) (page : String) :
    List String :=
  (plans.filter (·.2 = .pageLoad page)).map (·.1)

theorem mem_plannedLoads {plans : List (String × Binding)} {page id : String} :
    id ∈ plannedLoads plans page ↔ (id, .pageLoad page) ∈ plans := by
  simp [plannedLoads]

/-- A run of bindings wires a page to the calls that are planned for it, in
their order. -/
theorem page?_bindAll (m : Mutation) (reason : String)
    (plans : List (String × Binding)) (q : String) :
    (View.mk (m.bindAll prior reason plans) prior).page? q
      = ((View.mk m prior).page? q).map
        (Page.wireLoads (plannedLoads plans q)) := by
  induction plans generalizing m with
  | nil => exact Option.map_id'.symm
  | cons plan plans ih =>
    show (View.mk
      ((m.bind prior reason plan.1 plan.2).bindAll prior reason plans)
      prior).page? q
      = _
    rw [ih, page?_bind, Option.map_map]
    congr 1
    funext p
    -- a plan counts for the page iff it is to load with it, in the run and in
    -- the list alike
    show Page.wireLoads _ (if _ then _ else p) = _
    by_cases hplan : plan.2 = .pageLoad q
    · rw [if_pos hplan, plannedLoads, plannedLoads,
        List.filter_cons_of_pos (by simpa using hplan)]
      rfl
    · rw [if_neg hplan, plannedLoads, plannedLoads,
        List.filter_cons_of_neg (by simpa using hplan)]

end View

/-! ## Which pages are carried -/

/-- The pages updated gain the wanted ones that only other pages have, each
once, and no page changes its id. -/
structure Mutation.Carries (others : List Page) (wanted : String → Prop)
    (m m' : Mutation) : Prop where
  pagesAdded : m'.pagesAdded.map (·.id) = m.pagesAdded.map (·.id)
  pagesUpdated : ∃ carried : List String,
    m'.pagesUpdated.map (·.id) = m.pagesUpdated.map (·.id) ++ carried
      ∧ carried.Nodup
      ∧ ∀ page, page ∈ carried ↔ wanted page ∧ page ∉ m.pages.map (·.id)
        ∧ page ∈ others.map (·.id)

namespace Mutation.Carries

variable {others : List Page} {wanted wanted' : String → Prop}
  {m m' m'' : Mutation}

/-- Where no page is carried, each that is wanted is there already or
nowhere. -/
theorem of_ids (hadded : m'.pagesAdded.map (·.id) = m.pagesAdded.map (·.id))
    (hupdated : m'.pagesUpdated.map (·.id) = m.pagesUpdated.map (·.id))
    (h : ∀ page, wanted page → page ∈ m.pages.map (·.id)
      ∨ page ∉ others.map (·.id)) :
    Carries others wanted m m' := by
  refine ⟨hadded,
    [], by rw [hupdated, List.append_nil], List.nodup_nil, fun page => ?_⟩
  simp only [List.not_mem_nil, false_iff]
  rintro ⟨hwanted, hnew, hother⟩
  rcases h page hwanted with hold | hnowhere
  · exact hnew hold
  · exact hnowhere hother

theorem trans (h : Carries others wanted m m')
    (h' : Carries others wanted' m' m'') :
    Carries others (fun page => wanted page ∨ wanted' page) m m'' := by
  obtain ⟨hadded, carried, hupdated, hnodup, hmem⟩ := h
  obtain ⟨hadded', carried', hupdated', hnodup', hmem'⟩ := h'
  have hids : ∀ page, page ∈ m'.pages.map (·.id)
      ↔ page ∈ m.pages.map (·.id) ∨ page ∈ carried := by
    intro page
    simp only [pages, List.map_append, hadded, hupdated,
      List.mem_append, or_assoc]
  refine ⟨hadded'.trans hadded, carried ++ carried', ?_, ?_, fun page => ?_⟩
  · rw [hupdated', hupdated, List.append_assoc]
  · -- what the second run carries, the first one has not carried
    refine hnodup.append hnodup' fun page hpage hpage' =>
      ((hmem' page).1 hpage').2.1 ?_
    exact (hids page).2 (.inr hpage)
  · rw [List.mem_append, hmem', hids]
    by_cases hpage : page ∈ carried
    · have hcarried := (hmem page).1 hpage
      simp only [hpage, true_or, true_iff]
      exact ⟨.inl hcarried.1, hcarried.2⟩
    · have hnot := mt (hmem page).2 hpage
      simp only [hpage, false_or, or_false]
      constructor
      · rintro ⟨hwanted, hrest⟩
        exact ⟨.inr hwanted, hrest⟩
      · rintro ⟨hwanted | hwanted, hrest⟩
        · exact absurd ⟨hwanted, hrest⟩ hnot
        · exact ⟨hwanted, hrest⟩

theorem congr (h : Carries others wanted m m')
    (hwanted : ∀ page, wanted page ↔ wanted' page) :
    Carries others wanted' m m' := by
  obtain rfl : wanted = wanted' := funext fun page => propext (hwanted page)
  exact h

end Mutation.Carries

namespace View

variable {prior : Option Snapshot}

/-- Wiring a page carries it if only the snapshot has it. -/
theorem carries_wirePageLoad (m : Mutation) (page action : String) :
    m.Carries ((prior.map Snapshot.pages).getD []) (· = page)
      (m.wirePageLoad prior page action) := by
  have hid : ∀ p : Page, (p.wire Lifecycle.pageLoad action).id = p.id :=
    Page.id_wire Lifecycle.pageLoad action
  rcases wirePageLoad_cases m prior page action
    with h | ⟨p, hnone, hp, heq⟩ | ⟨hnone, heq⟩
  · -- the page is one of the mutation, so none is carried
    have hold : page ∈ m.pages.map (·.id) := by
      obtain ⟨p, hp, _⟩ := Mutation.page?_modifyPage? hid h
      exact Mutation.page?_isSome.1 (Option.isSome_of_eq_some hp)
    rcases Mutation.modifyPage?_eq_some h
      with ⟨added, hadded, heq⟩ | ⟨updated, hupdated, heq⟩
    · refine .of_ids ?_ (by rw [heq]) fun q hq => .inl (hq ▸ hold)
      rw [heq]
      exact map_key_modifyFirst? hid hadded
    · refine .of_ids (by rw [heq]) ?_ fun q hq => .inl (hq ▸ hold)
      rw [heq]
      exact map_key_modifyFirst? hid hupdated
  · have hpage : p.id = page := by simpa using List.find?_some hp
    have hnew : page ∉ m.pages.map (·.id) := find?_key_eq_none.1 hnone
    have hother : page ∈ ((prior.map Snapshot.pages).getD []).map (·.id) :=
      isSome_find?_iff.1 (Option.isSome_of_eq_some hp)
    refine ⟨by rw [heq], [page], ?_, List.nodup_singleton page, fun q => ?_⟩
    · rw [heq, List.map_append, List.map_singleton, hid, hpage]
    · rw [List.mem_singleton]
      exact ⟨fun hq => ⟨hq, hq ▸ hnew, hq ▸ hother⟩, fun hq => hq.1⟩
  · -- the page is nowhere, and nothing is wired
    have hnowhere : page ∉ ((prior.map Snapshot.pages).getD []).map (·.id) := by
      rw [page?_eq, Option.or_eq_none_iff] at hnone
      exact find?_key_eq_none.1 hnone.2
    exact .of_ids (by rw [heq]) (by rw [heq]) fun q hq => .inr (hq ▸ hnowhere)

/-- A binding carries the page that it names, if only the snapshot has it. -/
theorem carries_bind (m : Mutation) (reason id : String) (b : Binding) :
    m.Carries ((prior.map Snapshot.pages).getD []) (b = .pageLoad ·)
      (m.bind prior reason id b) := by
  obtain ⟨hadded, hupdated⟩ := pages_addTrigger m id (b.trigger reason)
  cases b with
  | pageLoad page =>
    have hbound :
        m.Carries ((prior.map Snapshot.pages).getD []) (fun _ => False) _ :=
      .of_ids (congrArg _ hadded) (congrArg _ hupdated) nofun
    refine (hbound.trans (carries_wirePageLoad _ page id)).congr fun q => ?_
    rw [false_or, Binding.pageLoad.injEq, eq_comm]
  | stateChange key =>
    exact .of_ids (congrArg _ hadded) (congrArg _ hupdated) nofun
  | safetyNet => exact .of_ids (congrArg _ hadded) (congrArg _ hupdated) nofun

/-- A run of bindings carries the pages that plans name and that only the
snapshot has. -/
theorem carries_bindAll (m : Mutation) (reason : String)
    (plans : List (String × Binding)) :
    m.Carries ((prior.map Snapshot.pages).getD [])
      (fun page => ∃ id, (id, .pageLoad page) ∈ plans)
      (m.bindAll prior reason plans) := by
  induction plans generalizing m with
  | nil => exact .of_ids rfl rfl (by simp)
  | cons plan plans ih =>
    obtain ⟨id, b⟩ := plan
    refine ((carries_bind m reason id b).trans
      (ih (m.bind prior reason id b))).congr fun page => ?_
    simp only [List.mem_cons, Prod.mk.injEq, exists_or, exists_eq_left]
    exact or_congr_left eq_comm

/-! ## What a planned action gets -/

/-- An action that no plan is for stays as it is. -/
theorem action?_bindAll_of_not_mem {m : Mutation} {reason : String}
    {plans : List (String × Binding)} {j : String} (hj : j ∉ plans.map (·.1)) :
    (View.mk (m.bindAll prior reason plans) prior).action? j
      = (View.mk m prior).action? j := by
  induction plans generalizing m with
  | nil => rfl
  | cons plan plans ih =>
    rw [List.map_cons, List.mem_cons, not_or] at hj
    exact (ih hj.2).trans (action?_bind_of_ne m reason plan.2 hj.1)

/-- Where plans are for different actions, an action gets the trigger of the
plan that is for it. -/
theorem action?_bindAll {m : Mutation} {reason : String}
    {plans : List (String × Binding)} (hnodup : (plans.map (·.1)).Nodup)
    {id : String} {b : Binding} (hplan : (id, b) ∈ plans) {a : Action}
    (ha : m.action? id = some a) :
    (View.mk (m.bindAll prior reason plans) prior).action? id
      = some (a.addTrigger (b.trigger reason)) := by
  induction plans generalizing m with
  | nil => cases hplan
  | cons plan plans ih =>
    obtain ⟨hnew, hrest⟩ := List.nodup_cons.1 hnodup
    rcases List.mem_cons.1 hplan with rfl | hplan
    · exact (action?_bindAll_of_not_mem hnew).trans (action?_bind_self ha)
    · have hne : id ≠ plan.1 := by
        rintro rfl
        exact hnew (List.mem_map.2 ⟨_, hplan, rfl⟩)
      have hmem : id ∈ m.actions.map (·.id) :=
        Mutation.action?_isSome.1 (Option.isSome_of_eq_some ha)
      have hmem' :
          id ∈ (m.bind prior reason plan.1 plan.2).actions.map (·.id) := by
        have hrewires : Rewires [plan.1] ⟨m, prior⟩ _ :=
          rewires_bind m reason plan.1 plan.2
        rw [hrewires.map_id]
        exact hmem
      -- the first plan is for another action, and leaves this one where it was
      refine ih hrest hplan ?_
      calc (m.bind prior reason plan.1 plan.2).action? id
          = (View.mk (m.bind prior reason plan.1 plan.2) prior).action? id :=
            (action?_of_mem (v := ⟨_, prior⟩) hmem').symm
        _ = (View.mk m prior).action? id :=
          action?_bind_of_ne m reason plan.2 hne
        _ = m.action? id := action?_of_mem (v := ⟨m, prior⟩) hmem
        _ = some a := ha

/-! ## Orphans -/

variable {v : View} {config : Configuration} {id : String} {a : Action}

/-- An orphan has no trigger that could run it. -/
theorem addTrigger_of_orphan (horphan : id ∈ v.reachability.orphans)
    (ha : v.action? id = some a) {t : Trigger}
    (hroot : v.isRootTrigger t = true) :
    a.addTrigger t = { a with triggeredBy := a.triggeredBy ++ [t] } := by
  rw [Action.addTrigger, if_neg]
  intro hold
  have hid : id ∈ v.actionIds := mem_actionIds.2 (Option.isSome_of_eq_some ha)
  refine (mem_orphans.1 horphan).2
    (mem_roots.2 ⟨hid, .inr ⟨a, ha, t, ?_, hroot⟩⟩)
  simpa using hold

/-- No page of the view wires an event to an orphan. -/
theorem wires_of_orphan (horphan : id ∈ v.reachability.orphans) {p : Page}
    (hp : p ∈ v.pages) (event : String) : p.wires event id = false := by
  rw [Page.wires_eq_false_iff]
  intro hevent
  obtain ⟨hmem, hroot⟩ := mem_orphans.1 horphan
  have hid : id ∈ v.actionIds := by
    obtain ⟨a, ha, rfl⟩ := List.mem_map.1 hmem
    exact id_mem_actionIds ha
  have href : id ∈ v.eventActionRefs :=
    mem_eventActionRefs.2 (.inr ⟨p, hp, _, hevent, rfl⟩)
  exact hroot (mem_roots.2 ⟨hid, .inl href⟩)

/-- An orphan that stays gets the trigger of the binding that is chosen for it,
and nothing else of it changes. -/
theorem action?_repaired_of_orphan (horphan : id ∈ v.reachability.orphans)
    (hkept : id ∉ v.redundantIds v.reachability) (ha : v.action? id = some a) :
    (v.repaired v.reachability config).action? id = some { a with
      triggeredBy := a.triggeredBy
        ++ [(v.chooseBinding a).trigger config.repair.safetyNetReason] } := by
  obtain ⟨normalizers, mirrors, hsynthesis, _, hrepaired⟩ :=
    exists_synthesis v config
  have hplan : (id, v.chooseBinding a) ∈ v.boundPlans v.reachability :=
    mem_boundPlans_iff.2 ⟨horphan, hkept, a, ha, rfl⟩
  have hnodup : ((v.boundPlans v.reachability).map (·.1)).Nodup :=
    (sublist_boundPlans v v.reachability).nodup v.nodup_orphans
  have hfound :
      (v.removeActions (v.redundantIds v.reachability)).mutation.action? id
        = some a := by
    rw [removeActions, Mutation.action?_removeActions hkept,
      ← action?_of_mem (mem_orphans.1 horphan).1, ha]
  rw [hrepaired,
    ← addTrigger_of_orphan horphan ha (isRootTrigger_trigger v _ _)]
  refine action?_addActions_of_some hsynthesis.fresh ?_
  rw [settled, view_settle]
  exact action?_bindAll hnodup hplan hfound

/-- A removal wires none either. -/
theorem wires_removeActions {ids : List String} {event : String}
    (horphan : id ∈ v.reachability.orphans) {p : Page}
    (hp : p ∈ (v.removeActions ids).pages) :
    p.wires event id = false := by
  obtain ⟨p', hp', hdropped⟩ :=
    exists_of_rel_right (rel_page?_removeActions v ids p.id) (mem_pages.1 hp)
  have hfree := wires_of_orphan horphan (mem_pages_of_page? hp') event
  rcases hdropped with rfl | rfl
  · exact hfree
  · rw [Page.wires_eq_false_iff] at hfree ⊢
    exact fun hevent => hfree (Page.mem_events_dropEvents.1 hevent).1

theorem sublist_plannedLoads (v : View) (page : String) :
    (plannedLoads (v.boundPlans v.reachability) page).Sublist
      v.reachability.orphans :=
  (List.filter_sublist.map _).trans (sublist_boundPlans v v.reachability)

/-- A page stands after repair where it stood before, without the events that
are dropped and with the loads that are planned for it. -/
theorem page?_repaired (v : View) (config : Configuration) (q : String) :
    (v.repaired v.reachability config).page? q
      = ((v.removeActions (v.redundantIds v.reachability)).page? q).map
        fun p => { p with
        events := p.events
          ++ (plannedLoads (v.boundPlans v.reachability) q).map
            (⟨Lifecycle.pageLoad, ·⟩) } := by
  obtain ⟨normalizers, mirrors, _, _, hrepaired⟩ := exists_synthesis v config
  have hplanned := sublist_plannedLoads v q
  calc (v.repaired v.reachability config).page? q
      = (v.settled config).page? q := by rw [hrepaired]; rfl
    _ = ((v.removeActions (v.redundantIds v.reachability)).page? q).map
        (Page.wireLoads (plannedLoads (v.boundPlans v.reachability) q)) := by
      rw [settled, view_settle]
      exact page?_bindAll _ _ _ q
    _ = _ := Option.map_congr fun p hp =>
      Page.wireLoads_eq (hplanned.nodup v.nodup_orphans) fun id hid =>
        wires_removeActions (hplanned.subset hid) (mem_pages_of_page? hp)

/-! ## Idle calls -/

/-- A call to an integration that nothing runs, that is not removed, and whose
templates refer to no key. -/
structure IdleCall (v : View) (id : String) (a : Action) : Prop where
  orphan : id ∈ v.reachability.orphans
  kept : id ∉ v.removed v.reachability
  found : v.action? id = some a
  kind : a.kind = .integrationCall
  plain : a.templatedKeys = ∅

/-- What is planned to load with a page are the idle calls that the page is
chosen for. -/
theorem mem_plannedLoads_iff {page : String} :
    id ∈ plannedLoads (v.boundPlans v.reachability) page
      ↔ ∃ a, v.IdleCall id a ∧ v.LoadsOn a page := by
  rw [mem_plannedLoads, mem_boundPlans_iff, mem_redundantIds]
  simp only [chooseBinding_eq_pageLoad_iff]
  constructor
  · rintro ⟨horphan, hkept, a, ha, hplain, hkind, hloads⟩
    exact ⟨a, ⟨horphan, hkept, ha, hkind, hplain⟩, hloads⟩
  · rintro ⟨a, hidle, hloads⟩
    exact ⟨hidle.orphan, hidle.kept, a, hidle.found, hidle.plain,
      hidle.kind, hloads⟩

/-- Repair carries the pages that are chosen for idle calls and that only the
snapshot has. -/
theorem carries_repaired (v : View) (config : Configuration) :
    v.mutation.Carries v.priorPages (fun page => ∃ id a, v.IdleCall id a
      ∧ v.LoadsOn a page) (v.repaired v.reachability config).mutation := by
  obtain ⟨normalizers, mirrors, _, _, hrepaired⟩ := exists_synthesis v config
  have hids : ∀ pages : List Page,
      (pages.map (Page.dropEvents (v.redundantIds v.reachability))).map (·.id)
        = pages.map (·.id) := fun pages => by rw [List.map_map]; rfl
  -- pages are carried by the bindings, neither by the removal nor by the
  -- additions
  have hremoved : v.mutation.Carries v.priorPages (fun _ => False)
      (v.removeActions (v.redundantIds v.reachability)).mutation :=
    .of_ids (hids _) (hids _) nofun
  have hbound : Mutation.Carries v.priorPages
      (fun page => ∃ id, (id, .pageLoad page) ∈ v.boundPlans v.reachability)
      (v.removeActions (v.redundantIds v.reachability)).mutation
      (v.settled config).mutation := by
    rw [settled, view_settle]
    exact carries_bindAll _ _ _
  have hadded :
      Mutation.Carries v.priorPages (fun _ => False) (v.settled config).mutation
        (v.repaired v.reachability config).mutation := by
    rw [hrepaired]
    exact .of_ids rfl rfl nofun
  refine ((hremoved.trans hbound).trans hadded).congr fun page => ?_
  simp only [false_or, or_false, ← mem_plannedLoads, mem_plannedLoads_iff]

/-- What repair makes of the idle calls of a view. They run on the load of the
pages that are chosen for them, and the pages `carried` among those updated are
the chosen ones that only the snapshot has. -/
structure Hydrated (v : View) (config : Configuration) (out : View)
    (carried : List Page) : Prop where
  safetyNet : v.pages = [] → ∀ id a, v.IdleCall id a →
    out.action? id = some { a with
    triggeredBy := a.triggeredBy ++ [.internal config.repair.safetyNetReason] }
  triggered : v.pages ≠ [] → ∀ id a, v.IdleCall id a →
    out.action? id = some { a with
    triggeredBy := a.triggeredBy ++ [.lifecycle Lifecycle.pageLoad] }
  chosen : v.pages ≠ [] → ∀ id a, v.IdleCall id a → ∃ page, v.LoadsOn a page
  wired : ∀ id a page, v.IdleCall id a → v.LoadsOn a page →
    ∃ p, out.page? page = some p ∧ p.wires Lifecycle.pageLoad id = true
  pagesUpdated : ∃ kept, out.mutation.pagesUpdated = kept ++ carried
    ∧ kept.map (·.id) = v.mutation.pagesUpdated.map (·.id)
  once : (carried.map (·.id)).Nodup
  mem_carried : ∀ page, page ∈ carried.map (·.id) ↔
    v.mutation.page? page = none ∧ ∃ id a, v.IdleCall id a ∧ v.LoadsOn a page
  carried : ∀ p' ∈ carried, ∃ (p : Page) (ids : List String),
    v.priorPages.find? (·.id == p'.id) = some p
    ∧ (∀ id, id ∈ ids ↔ ∃ a, v.IdleCall id a ∧ v.LoadsOn a p'.id)
    ∧ ids.Sublist v.reachability.orphans
    ∧ p' = { p with events := p.events ++ ids.map (⟨Lifecycle.pageLoad, ·⟩) }

/-- The page that an idle call is to run on is wired to it. -/
theorem exists_wires_repaired {page : String} (hidle : v.IdleCall id a)
    (hloads : v.LoadsOn a page) :
    ∃ p, (v.repaired v.reachability config).page? page = some p
      ∧ p.wires Lifecycle.pageLoad id = true := by
  have hplanned : id ∈ plannedLoads (v.boundPlans v.reachability) page :=
    mem_plannedLoads_iff.2 ⟨a, hidle, hloads⟩
  have hpage :
      ((v.removeActions (v.redundantIds v.reachability)).page?
        page).isSome := by
    rw [(differsInEvents_removeActions v _).isSome_page?_eq]
    exact hloads.isSome_page?
  obtain ⟨p, hp⟩ := Option.isSome_iff_exists.1 hpage
  refine ⟨_, by rw [page?_repaired, hp, Option.map_some], ?_⟩
  simp [Page.wires, hplanned]

/-- A page that only the snapshot has stands after repair with the loads that
are planned for it. -/
theorem page?_repaired_of_prior {page : String}
    (hnone : v.mutation.page? page = none) :
    (v.repaired v.reachability config).page? page
      = (v.priorPages.find? (·.id == page)).map fun p => { p with
        events := p.events
          ++ (plannedLoads (v.boundPlans v.reachability) page).map
            (⟨Lifecycle.pageLoad, ·⟩) } := by
  rw [page?_repaired, page?_eq, removeActions,
    Mutation.page?_removeActions, hnone]
  rfl

/-- A page that is alone with its id among pages behind others stands for its
id. -/
theorem page?_of_mem_carried {m : Mutation} {kept carried : List Page}
    (hpages : m.pagesUpdated = kept ++ carried)
    (hnodup : (carried.map (·.id)).Nodup) {p : Page} (hp : p ∈ carried)
    (hadded : p.id ∉ m.pagesAdded.map (·.id)) (hkept : p.id ∉ kept.map (·.id)) :
    m.page? p.id = some p := by
  have hfound : carried.find? (·.id == p.id) = some p :=
    find?_eq_some_of_nodup hnodup hp
  rw [Mutation.page?, Mutation.pages, hpages, List.find?_append,
    List.find?_append, find?_key_eq_none.2 hadded,
    find?_key_eq_none.2 hkept, hfound]
  rfl

/-- Every idle call runs on the load of the page that it names, or else of the
first that shows its result, or else of the first that there is, and as a safety
net where there is none. However many calls choose a page of the snapshot, it is
carried over once, with their loads after its events and nothing else
changed. -/
theorem hydrated_repair (m : Mutation) (prior : Option Snapshot)
    (config : Configuration) :
    let v : View := ⟨m, prior⟩
    ∃ carried,
      v.Hydrated config (v.repaired v.reachability config) carried := by
  intro v
  have hcall : ∀ id a, v.IdleCall id a →
      (v.repaired v.reachability config).action? id
        = some { a with triggeredBy := a.triggeredBy
          ++ [(v.chooseBinding a).trigger config.repair.safetyNetReason] } :=
    fun id a hidle => action?_repaired_of_orphan hidle.orphan
      (mt mem_redundantIds.1 hidle.kept) hidle.found
  obtain ⟨hadded, ids, hupdated, hnodup, hmem⟩ := carries_repaired v config
  obtain ⟨kept, carried, hpages, hkept, rfl⟩ :=
    List.map_eq_append_iff.1 hupdated
  refine ⟨carried, ?_⟩
  exact {
    safetyNet := fun hnone id a hidle => by
      rw [hcall id a hidle, chooseBinding_eq_safetyNet hidle.plain hnone]
      rfl
    triggered := fun hsome id a hidle => by
      obtain ⟨page, hloads⟩ := exists_loadsOn hsome a
      have hchosen : v.chooseBinding a = .pageLoad page :=
        chooseBinding_eq_pageLoad_iff.2 ⟨hidle.plain, hidle.kind, hloads⟩
      rw [hcall id a hidle, hchosen]
      rfl
    chosen := fun hsome id a _ => exists_loadsOn hsome a
    wired := fun id a page hidle hloads => exists_wires_repaired hidle hloads
    pagesUpdated := ⟨kept, hpages, hkept⟩
    once := hnodup
    mem_carried := fun page => by
      rw [hmem, ← find?_key_eq_none]
      constructor
      · rintro ⟨hchosen, hnone, _⟩
        exact ⟨hnone, hchosen⟩
      · rintro ⟨hnone, id, a, hidle, hloads⟩
        -- what is chosen is a page of the view, and so of the snapshot if not
        -- of the mutation
        have hpage := hloads.isSome_page?
        rw [page?_eq, hnone, Option.none_or] at hpage
        exact ⟨⟨id, a, hidle, hloads⟩, hnone, isSome_find?_iff.1 hpage⟩
    carried := fun p' hp' => by
      obtain ⟨_, hnew, _⟩ := (hmem p'.id).1 (List.mem_map_of_mem hp')
      have hnone : v.mutation.page? p'.id = none := find?_key_eq_none.2 hnew
      -- no page before the carried ones has its id, so it is what its id stands
      -- for
      have hfound :
          (v.repaired v.reachability config).page? p'.id = some p' := by
        rw [Mutation.pages, List.map_append, List.mem_append, not_or] at hnew
        rw [page?_eq,
          page?_of_mem_carried hpages hnodup hp' (hadded ▸ hnew.1)
          (hkept ▸ hnew.2)]
        rfl
      rw [page?_repaired_of_prior hnone] at hfound
      obtain ⟨p, hp, heq⟩ := Option.map_eq_some_iff.1 hfound
      exact ⟨p, _, hp, fun id => mem_plannedLoads_iff,
        sublist_plannedLoads v p'.id, heq.symm⟩ }

/-- Two calls choose the page of the snapshot. -/
example : plannedLoads (orderDesk.boundPlans orderDesk.reachability) "home"
    = ["fetch_orders", "fetch_totals"] := by
  decide +kernel

end View

end IntentGraph
