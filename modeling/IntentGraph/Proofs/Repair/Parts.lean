import IntentGraph.Proofs.Repair.FixedPoint
import IntentGraph.Proofs.Repair.Loop

/-!
# Where the parts of a repaired mutation come from

Every part of a repaired mutation is one that was there, changed by what the
stages of repair may change: actions get triggers, components lose events, pages
lose events and get loads of actions of the mutation, and state stays. Only
actions are made, for results and for the status of calls that are there. What
is said of an action is its `View.Origin` (`View.origin_of_mem`).
-/

namespace IntentGraph

/-! ## State -/

/-- Two mutations set the same state. -/
structure Mutation.SameState (m m' : Mutation) : Prop where
  added : m'.stateAdded = m.stateAdded
  updated : m'.stateUpdated = m.stateUpdated

namespace Mutation.SameState

variable {m m' m'' : Mutation}

theorem refl (m : Mutation) : m.SameState m := ⟨rfl, rfl⟩

theorem trans (h : m.SameState m') (h' : m'.SameState m'') : m.SameState m'' :=
  ⟨h'.added.trans h.added, h'.updated.trans h.updated⟩

theorem modifyAction? {id : String} {f : Action → Action}
    (h : m.modifyAction? id f = some m') :
    m.SameState m' := by
  rcases View.modifyAction?_eq_some h with ⟨_, _, rfl⟩ | ⟨_, _, rfl⟩
    <;> exact ⟨rfl, rfl⟩

theorem modifyPage? {id : String} {f : Page → Page}
    (h : m.modifyPage? id f = some m') :
    m.SameState m' := by
  rcases Mutation.modifyPage?_eq_some h with ⟨_, _, rfl⟩ | ⟨_, _, rfl⟩
    <;> exact ⟨rfl, rfl⟩

theorem wirePageLoad (m : Mutation) (prior : Option Snapshot)
    (page action : String) :
    m.SameState (m.wirePageLoad prior page action) := by
  rcases View.wirePageLoad_cases m prior page action
    with h | ⟨_, _, _, heq⟩ | ⟨_, heq⟩
  · exact modifyPage? h
  · exact ⟨by rw [heq], by rw [heq]⟩
  · exact ⟨by rw [heq], by rw [heq]⟩

theorem bind (m : Mutation) (prior : Option Snapshot) (reason id : String)
    (b : Binding) :
    m.SameState (m.bind prior reason id b) := by
  have hbound : m.SameState
      ((m.modifyAction? id (Action.addTrigger (b.trigger reason))).getD m) := by
    cases h : m.modifyAction? id (Action.addTrigger (b.trigger reason)) with
    | none => exact refl m
    | some m' => exact modifyAction? h
  cases b with
  | pageLoad page => exact hbound.trans (wirePageLoad _ prior page id)
  | stateChange key => exact hbound
  | safetyNet => exact hbound

theorem bindAll (m : Mutation) (prior : Option Snapshot) (reason : String)
    (plans : List (String × Binding)) :
    m.SameState (m.bindAll prior reason plans) := by
  induction plans generalizing m with
  | nil => exact refl m
  | cons plan plans ih => exact (bind m prior reason plan.1 plan.2).trans (ih _)

end Mutation.SameState

namespace View

variable {v : View} {reach : Reachability} {config : Configuration}

/-- Repair sets no state. -/
theorem sameState_repaired (v : View) (reach : Reachability)
    (config : Configuration) :
    v.mutation.SameState (v.repaired reach config).mutation := by
  obtain ⟨settled, normalizers, mirrors, hsettled, _, _, hview⟩ :=
    exists_repair v reach config
  rw [hview, hsettled, view_settle]
  have hbound :=
    Mutation.SameState.bindAll (v.removeActions (v.redundantIds reach)).mutation
      v.prior config.repair.safetyNetReason (v.boundPlans reach)
  exact ⟨hbound.added, hbound.updated⟩

end View

/-! ## Actions -/

/-- The action with triggers added, those that wait for a key waiting for one of
a sort. -/
def Action.BoundTo (sort : String → Prop) (a a' : Action) : Prop :=
  ∃ triggers, a' = { a with triggeredBy := a.triggeredBy ++ triggers }
    ∧ ∀ key, .stateChange key ∈ triggers → sort key

namespace Action.BoundTo

variable {sort sort' : String → Prop} {a a' a'' : Action}

theorem refl (sort : String → Prop) (a : Action) : BoundTo sort a a :=
  ⟨[], by rw [List.append_nil], fun _ h => absurd h List.not_mem_nil⟩

theorem trans (h : BoundTo sort a a') (h' : BoundTo sort a' a'') :
    BoundTo sort a a'' := by
  obtain ⟨triggers, rfl, hsort⟩ := h
  obtain ⟨triggers', rfl, hsort'⟩ := h'
  exact ⟨triggers ++ triggers', by rw [List.append_assoc],
    fun key hkey => (List.mem_append.1 hkey).elim (hsort key) (hsort' key)⟩

theorem mono (h : BoundTo sort a a') (himp : ∀ key, sort key → sort' key) :
    BoundTo sort' a a' := by
  obtain ⟨triggers, heq, hsort⟩ := h
  exact ⟨triggers, heq, fun key hkey => himp key (hsort key hkey)⟩

theorem addTrigger {reason : String} {b : Binding}
    (h : ∀ key, b = .stateChange key → sort key) (a : Action) :
    BoundTo sort a (a.addTrigger (b.trigger reason)) := by
  rw [Action.addTrigger]
  split
  · exact refl sort a
  · refine ⟨[b.trigger reason], rfl, fun key hkey => h key ?_⟩
    exact View.trigger_eq_stateChange_iff.1 (List.mem_singleton.1 hkey).symm

/-- The action reads what it read, and the keys that it waits for besides. -/
theorem mem_readKeys (h : BoundTo sort a a') {key : String}
    (hkey : key ∈ a'.readKeys) :
    key ∈ a.readKeys ∨ sort key := by
  obtain ⟨triggers, rfl, hsort⟩ := h
  rw [readKeys, KeySet.mem_ofList, List.mem_append, mem_watchedKeys] at hkey
  rcases hkey with hkey | hwaits
  · exact .inl (KeySet.mem_ofList.2 (List.mem_append_left _ hkey))
  · rcases List.mem_append.1 hwaits with hwaits | hwaits
    · exact .inl
        (KeySet.mem_ofList.2
          (List.mem_append_right _ (mem_watchedKeys.2 hwaits)))
    · exact .inr (hsort key hwaits)

end Action.BoundTo

namespace Mutation

variable {m : Mutation} {prior : Option Snapshot} {reason : String}

/-- A binding adds its trigger to one of the actions. -/
theorem exists_of_mem_actions_bind {id : String} {b : Binding} {a' : Action}
    (h : a' ∈ (m.bind prior reason id b).actions) :
    ∃ a ∈ m.actions, a.BoundTo (fun key => b = .stateChange key) a' := by
  have hadd : ∀ a : Action, a.BoundTo (fun key => b = .stateChange key)
      (a.addTrigger (b.trigger reason)) :=
    Action.BoundTo.addTrigger fun _ heq => heq
  -- wiring a page does not touch the actions
  have hbound :
      a' ∈ ((m.modifyAction? id (Action.addTrigger (b.trigger reason))).getD
        m).actions := by
    cases b with
    | pageLoad page =>
      rw [Mutation.bind] at h
      exact (View.actions_wirePageLoad _ prior page id) ▸ h
    | stateChange key => exact h
    | safetyNet => exact h
  have hactions :=
    actions_modifyAction? m id (Action.addTrigger (b.trigger reason))
  cases hm : m.modifyAction? id (Action.addTrigger (b.trigger reason)) with
  | none =>
    rw [hm] at hbound
    exact ⟨a', hbound, .refl _ a'⟩
  | some m' =>
    rw [hm] at hbound hactions
    exact mem_right_of_forall₂
      (forall₂_modifyFirst? (Action.BoundTo.refl _) (fun a _ => hadd a)
        hactions.symm) hbound

theorem exists_of_mem_actions_bindAll
    {plans : List (String × Binding)} {a' : Action}
    (h : a' ∈ (m.bindAll prior reason plans).actions) : ∃ a ∈ m.actions,
      a.BoundTo (fun key => ∃ plan ∈ plans, plan.2 = .stateChange key) a' := by
  induction plans generalizing m with
  | nil => exact ⟨a', h, .refl _ a'⟩
  | cons plan plans ih =>
    obtain ⟨a'', ha'', hrest⟩ := ih h
    obtain ⟨a, ha, hfirst⟩ := exists_of_mem_actions_bind ha''
    refine ⟨a, ha,
      (hfirst.mono fun key heq => ⟨plan, List.mem_cons_self, heq⟩).trans
      (hrest.mono fun key => ?_)⟩
    rintro ⟨plan', hplan', heq⟩
    exact ⟨plan', List.mem_cons_of_mem _ hplan', heq⟩

end Mutation

namespace View

variable {v : View} {reach : Reachability} {config : Configuration}

/-- Some call of the mutation to an integration assigns the key. -/
def CallAssigns (v : View) (key : String) : Prop :=
  ∃ a ∈ v.mutation.actions, a.kind = .integrationCall
    ∧ a.assignedKey? = some key

/-- How an action came into a repaired mutation. -/
inductive Origin (v : View) (reach : Reachability) (config : Configuration)
    (a : Action) : Prop
  /-- It was there, and was bound to keys that actions refer to. -/
  | kept {b : Action} : b ∈ v.mutation.actions →
      b.BoundTo (fun key => ∃ b ∈ v.mutation.actions, key ∈ b.templatedKeys) a →
      Origin v reach config a
  /-- It was made for the result of a call. -/
  | normalizer {o : UnreadOutput} : MadeFrom UnreadOutput.normalizer o a →
      (v.repaired reach config).CallAssigns o.key → Origin v reach config a
  /-- It was made for the status of a call, which components read under other
  keys. -/
  | mirror {p : MirrorPlan} : MadeFrom MirrorPlan.mirror p a →
      (v.repaired reach config).CallAssigns p.dataKey →
      p.uiStatus ∈ (v.repaired reach config).componentReadKeys →
      p.uiError ∈ (v.repaired reach config).componentReadKeys →
        Origin v reach config a

/-- What a binding makes an action wait for is a key that an action refers
to. -/
theorem exists_of_bound {plan : String × Binding}
    (h : plan ∈ v.boundPlans reach) {key : String}
    (hkey : plan.2 = .stateChange key) :
    ∃ b ∈ v.mutation.actions, key ∈ b.templatedKeys := by
  obtain ⟨b, hb, rfl⟩ := exists_of_mem_boundPlans h
  exact ⟨b, (Mutation.mem_actions_removeActions.1 hb).1,
    List.mem_of_mem_head? (chooseBinding_eq_stateChange_iff.1 hkey)⟩

theorem CallAssigns.addActions {key : String} (h : v.CallAssigns key)
    (added : List Action) :
    (v.addActions added).CallAssigns key := by
  obtain ⟨a, ha, hcall⟩ := h
  exact ⟨a, mem_mutation_addActions.2 (.inl ha), hcall⟩

theorem callAssigns_of_mem_plannedNormalizers {o : UnreadOutput}
    (h : o ∈ v.plannedNormalizers config) : v.CallAssigns o.key := by
  rw [plannedNormalizers] at h
  split at h
  · obtain ⟨a, ha, hout⟩ := List.mem_filterMap.1 (mem_of_mem_distinctBy h)
    obtain ⟨key, hkey, rfl⟩ := Option.map_eq_some_iff.1 hout
    obtain ⟨hkind, _, hassigned⟩ :=
      expectedOutput?_eq_some.1 (Option.filter_eq_some_iff.1 hkey).1
    exact ⟨a, ha, hkind, hassigned⟩
  · cases h

/-- What is expected has the stem of the data key, and components read it while
nobody writes it. -/
theorem of_expectedStatus? {dataKey uiStatus uiError : String}
    (h : v.expectedStatus? dataKey = some (uiStatus, uiError)) :
    (∃ base, Key.statusBase? uiStatus = some base ∧ uiError = Key.error base)
      ∧ Key.stem uiStatus = Key.stem dataKey
      ∧ v.isMirrorable uiStatus = true ∧ v.isMirrorable uiError = true := by
  obtain ⟨key, _, h⟩ := List.exists_of_findSome?_eq_some h
  obtain ⟨base, hbase, h⟩ := Option.bind_eq_some_iff.1 h
  split at h
  · next hexpected =>
    cases h
    exact ⟨⟨base, hbase, rfl⟩, hexpected.2⟩
  · cases h

theorem of_mem_plannedMirrors {p : MirrorPlan}
    (h : p ∈ v.plannedMirrors config) :
    v.CallAssigns p.dataKey
      ∧ v.expectedStatus? p.dataKey = some (p.uiStatus, p.uiError) := by
  rw [plannedMirrors] at h
  split at h
  · obtain ⟨a, ha, hplan⟩ := List.mem_filterMap.1 h
    obtain ⟨hkind, hkey, _, _, hexpected⟩ := mirrorPlan?_eq_some.1 hplan
    exact ⟨⟨a, ha, hkind, hkey⟩, hexpected⟩
  · cases h

/-- Every action of a repaired mutation has an origin. -/
theorem origin_of_mem {a : Action}
    (ha : a ∈ (v.repaired reach config).mutation.actions) :
    v.Origin reach config a := by
  obtain ⟨settled, normalizers, mirrors, hsettled, hrewires, hsynthesis,
    hview⟩ := exists_repair v reach config
  have hmem := ha
  rw [hview] at hmem
  rcases mem_mutation_addActions.1 hmem with hold | hnew
  · rw [hsettled, view_settle] at hold
    -- an action that was there is bound at most
    obtain ⟨b, hb, hwaits⟩ := Mutation.exists_of_mem_actions_bindAll hold
    refine .kept (Mutation.mem_actions_removeActions.1 hb).1
      (hwaits.mono fun key => ?_)
    rintro ⟨plan, hplan, hkey⟩
    exact exists_of_bound hplan hkey
  · rcases List.mem_append.1 hnew with hnew | hnew
    · obtain ⟨o, ho, hmade⟩ :=
        mem_right_of_forall₂ hsynthesis.normalizersMade hnew
      refine .normalizer hmade ?_
      rw [hview]
      exact (callAssigns_of_mem_plannedNormalizers ho).addActions _
    · obtain ⟨p, hp, hmade⟩ := mem_right_of_forall₂ hsynthesis.mirrorsMade hnew
      obtain ⟨hcall, hexpected⟩ := of_mem_plannedMirrors hp
      obtain ⟨_, _, hstatus, herror⟩ := of_expectedStatus? hexpected
      -- to make actions changes nothing of what components read
      have hreads : (v.repaired reach config).componentReadKeys
          = (settled.addActions normalizers).componentReadKeys := by
        rw [hview]
        rfl
      refine .mirror hmade ?_ (hreads ▸ (isMirrorable_iff.1 hstatus).1)
        (hreads ▸ (isMirrorable_iff.1 herror).1)
      rw [hview, addActions_append]
      exact hcall.addActions _

/-! ## Components and pages -/

/-- The components of a repaired mutation were there, apart from events that are
dropped. -/
theorem components_repaired (v : View) (reach : Reachability)
    (config : Configuration) :
    (v.repaired reach config).mutation.components
      = v.mutation.components.map
        (Component.dropEvents (v.redundantIds reach)) := by
  obtain ⟨settled, normalizers, mirrors, _, hrewires, _, hview⟩ :=
    exists_repair v reach config
  rw [hview]
  exact hrewires.components.trans Mutation.components_removeActions

/-- An event of a page of a repaired mutation was there, in the mutation or in
the snapshot, or runs an action of the mutation. -/
theorem exists_of_mem_repaired_pages {p : Page} {e : PageEvent}
    (hp : p ∈ (v.repaired reach config).mutation.pages) (he : e ∈ p.events) :
    (∃ q, (q ∈ v.mutation.pages ∨ q ∈ v.priorPages) ∧ e ∈ q.events)
      ∨ ∃ a ∈ v.mutation.actions, e.actionId = a.id := by
  obtain ⟨settled, normalizers, mirrors, _, hrewires, _, hview⟩ :=
    exists_repair v reach config
  rw [hview] at hp
  obtain ⟨q, hq, hrewired⟩ := hrewires.mutationPage p hp
  rcases hrewired.event he with he | ⟨_, hid⟩
  · -- the event was there before pages were wired
    have hleft : q ∈ (v.mutation.removeActions (v.redundantIds reach)).pages
        ∨ q ∈ v.priorPages := by
      rcases hq with hq | hq
      · exact .inl hq
      · exact List.mem_append.1 (mem_of_mem_distinctBy hq)
    rcases hleft with hq | hq
    · rw [Mutation.pages_removeActions] at hq
      obtain ⟨q', hq', rfl⟩ := List.mem_map.1 hq
      exact .inl ⟨q', .inl hq', (Page.mem_events_dropEvents.1 he).1⟩
    · exact .inl ⟨q, .inr hq, he⟩
  · -- the event is the load of a planned action
    obtain ⟨plan, hplan, hplanned⟩ := List.mem_map.1 hid
    obtain ⟨a, ha, rfl⟩ := exists_of_mem_boundPlans hplan
    exact .inr ⟨a, (Mutation.mem_actions_removeActions.1 ha).1, hplanned.symm⟩

end View

end IntentGraph
