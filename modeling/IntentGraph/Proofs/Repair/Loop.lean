import IntentGraph.Proofs.Repair.Closure
import IntentGraph.Proofs.Wake

/-!
# Loops that repair closes

Repair looks for no loops. It makes actions wait for keys that their templates
refer to, and adds actions that copy one key to another, and each of these can
close a loop with what the document wires itself. What it can close is known
exactly: keys flow in a repaired view as they did before, and as
`View.AddedFlow` says besides (`View.flows_repaired`).

* `View.flows_removeActions`: a removal takes no flow away, since what is
  removed waits for nothing, and uncovers actions of the snapshot;
* `View.flows_bindAll`: a run of bindings adds flows of the bound actions alone;
* `View.flows_addActions`: an addition adds the flows of what is added.

So repair leaves a view without loops iff none of the added flows lies on one
(`View.acyclic_repaired_iff`). That it may do so is
`View.closes_loop_orderCall`.
-/

namespace IntentGraph

open Relation

/-! ## What an action waits for -/

namespace Action

/-- The action writes what it wrote, and waits for some more keys. -/
structure WaitsAlso (more : String → Prop) (a a' : Action) : Prop where
  writes : a'.mutatedKeys = a.mutatedKeys
  waits : ∀ key, key ∈ a'.watchedKeys ↔ key ∈ a.watchedKeys ∨ more key

theorem WaitsAlso.refl {more : String → Prop} (h : ∀ key, ¬ more key)
    (a : Action) : a.WaitsAlso more a :=
  ⟨rfl, fun key => by simp [h key]⟩

theorem WaitsAlso.trans {more more' : String → Prop} {a a' a'' : Action}
    (h : a.WaitsAlso more a') (h' : a'.WaitsAlso more' a'') :
    a.WaitsAlso (fun key => more key ∨ more' key) a'' :=
  ⟨h'.writes.trans h.writes, fun key => by rw [h'.waits, h.waits, or_assoc]⟩

theorem WaitsAlso.congr {more more' : String → Prop} {a a' : Action}
    (h : a.WaitsAlso more a') (hmore : ∀ key, more key ↔ more' key) :
    a.WaitsAlso more' a' :=
  ⟨h.writes, fun key => by rw [h.waits, hmore]⟩

theorem waitsAlso_addTrigger (t : Trigger) (a : Action) :
    a.WaitsAlso (fun key => t = .stateChange key) (a.addTrigger t) := by
  unfold addTrigger
  by_cases h : t ∈ a.triggeredBy
  · rw [if_pos (by simpa using h)]
    refine ⟨rfl, fun key => ?_⟩
    rw [mem_watchedKeys, iff_self_or]
    exact fun heq => heq ▸ h
  · rw [if_neg (by simpa using h)]
    refine ⟨rfl, fun key => ?_⟩
    rw [mem_watchedKeys, mem_watchedKeys, List.mem_append,
      List.mem_singleton, eq_comm]

end Action

namespace View

variable {v : View}

/-! ## A removal -/

/-- What cannot run waits for nothing. -/
theorem watchedKeys_eq_nil {a : Action} (ha : a ∈ v.actions)
    (h : a.id ∉ v.roots) :
    a.watchedKeys = [] := by
  rw [List.eq_nil_iff_forall_not_mem]
  intro key hkey
  have hlistens : a.id ∈ v.listeners key :=
    mem_listeners.2 ⟨a, mem_actions.1 ha, hkey⟩
  exact h (mem_roots_of_mem_listeners hlistens)

theorem action?_removeActions_of_mem {ids : List String} {id : String}
    (hid : id ∈ ids) :
    (v.removeActions ids).action? id = v.priorActions.find? (·.id == id) := by
  rw [action?_eq]
  show ((v.mutation.removeActions ids).action? id).or _ = _
  rw [Mutation.action?_removeActions_of_mem hid, Option.none_or]
  rfl

/-- Keys flow after the removal of redundant actions as they did before, and
through the actions of the snapshot that come forth. -/
theorem flows_removeActions {k k' : String} :
    (v.removeActions (v.redundantIds v.reachability)).Flows k k' ↔ v.Flows k k'
      ∨ ∃ id ∈ v.redundantIds v.reachability, ∃ a,
        v.priorActions.find? (·.id == id) = some a
          ∧ k ∈ a.watchedKeys ∧ k' ∈ a.mutatedKeys := by
  constructor
  · rintro ⟨a, ha, hwaits, hwrites⟩
    have hfound := mem_actions.1 ha
    by_cases hid : a.id ∈ v.redundantIds v.reachability
    · rw [action?_removeActions_of_mem hid] at hfound
      exact .inr ⟨a.id, hid, a, hfound, hwaits, hwrites⟩
    · rw [action?_removeActions hid] at hfound
      exact .inl ⟨a, mem_actions.2 hfound, hwaits, hwrites⟩
  · rintro (⟨a, ha, hwaits, hwrites⟩ | ⟨id, hid, a, ha, hwaits, hwrites⟩)
    · have hkept : a.id ∉ v.redundantIds v.reachability := fun hid => by
        rw [watchedKeys_eq_nil ha (not_mem_roots_of_redundant hid)] at hwaits
        exact List.not_mem_nil hwaits
      have hfound := (action?_removeActions hkept).trans (mem_actions.1 ha)
      exact ⟨a, mem_actions_of_action? hfound, hwaits, hwrites⟩
    · have hfound := (action?_removeActions_of_mem hid).trans ha
      exact ⟨a, mem_actions_of_action? hfound, hwaits, hwrites⟩

/-! ## A run of bindings -/

variable {prior : Option Snapshot}

theorem trigger_eq_stateChange_iff {reason key : String} {b : Binding} :
    b.trigger reason = .stateChange key ↔ b = .stateChange key := by
  cases b <;> simp [Binding.trigger]

/-- A binding makes its action wait for its key, if it has one, and changes no
other flow. -/
theorem rel_action?_bind {m : Mutation} {reason id : String} {b : Binding}
    (hid : id ∈ m.actions.map (·.id)) (j : String) :
    Option.Rel (Action.WaitsAlso fun key => (j, .stateChange key) = (id, b))
      ((View.mk m prior).action? j)
      ((View.mk (m.bind prior reason id b) prior).action? j) := by
  by_cases hj : j = id
  · subst hj
    obtain ⟨a, ha⟩ := Option.isSome_iff_exists.1 (Mutation.action?_isSome.2 hid)
    have hfound : (View.mk m prior).action? j = some a :=
      (action?_of_mem hid).trans ha
    rw [hfound, action?_bind_self ha]
    refine .some ((Action.waitsAlso_addTrigger _ a).congr fun key => ?_)
    rw [trigger_eq_stateChange_iff, Prod.mk.injEq, eq_self_iff_true,
      true_and, eq_comm]
  · rw [action?_bind_of_ne m reason b hj]
    exact rel_refl (Action.WaitsAlso.refl fun key heq =>
      hj (Prod.mk.inj heq).1) _

/-- A run of bindings makes each action wait for the keys that it is bound
to. -/
theorem rel_action?_bindAll {m : Mutation} {reason : String}
    {plans : List (String × Binding)}
    (hids : ∀ plan ∈ plans, plan.1 ∈ m.actions.map (·.id)) (j : String) :
    Option.Rel (Action.WaitsAlso fun key => (j, .stateChange key) ∈ plans)
      ((View.mk m prior).action? j)
      ((View.mk (m.bindAll prior reason plans) prior).action? j) := by
  induction plans generalizing m with
  | nil => exact rel_refl (Action.WaitsAlso.refl fun _ => List.not_mem_nil) _
  | cons plan plans ih =>
    obtain ⟨id, b⟩ := plan
    have hkept :
        (m.bind prior reason id b).actions.map (·.id) = m.actions.map (·.id) :=
      (rewires_bind m reason id b : Rewires [id] ⟨m, prior⟩ _).map_id
    have hrest :
        ∀ plan ∈ plans,
          plan.1 ∈ (m.bind prior reason id b).actions.map (·.id) :=
      fun plan hplan => hkept ▸ hids plan (List.mem_cons_of_mem _ hplan)
    refine rel_trans (fun _ _ _ h h' => (h.trans h').congr fun key => ?_)
      (rel_action?_bind (hids (id, b) List.mem_cons_self) j) (ih hrest)
    rw [List.mem_cons]

/-- Keys flow after a run of bindings as they did before, and through the bound
actions. -/
theorem flows_bindAll {m : Mutation} {reason : String}
    {plans : List (String × Binding)}
    (hids : ∀ plan ∈ plans, plan.1 ∈ m.actions.map (·.id)) {k k' : String} :
    (View.mk (m.bindAll prior reason plans) prior).Flows k k'
      ↔ (View.mk m prior).Flows k k'
      ∨ ∃ a ∈ (View.mk m prior).actions, (a.id, .stateChange k) ∈ plans
        ∧ k' ∈ a.mutatedKeys := by
  have hrel : ∀ j, Option.Rel (Action.WaitsAlso fun key =>
      (j, .stateChange key) ∈ plans) ((View.mk m prior).action? j)
      ((View.mk (m.bindAll prior reason plans) prior).action? j) :=
    rel_action?_bindAll hids
  constructor
  · rintro ⟨a', ha', hwaits, hwrites⟩
    obtain ⟨a, ha, halso⟩ :=
      exists_of_rel_right (hrel a'.id) (mem_actions.1 ha')
    rw [halso.writes] at hwrites
    rcases (halso.waits k).1 hwaits with hwaits | hplan
    · exact .inl ⟨a, mem_actions_of_action? ha, hwaits, hwrites⟩
    · rw [← id_of_action? ha] at hplan
      exact .inr ⟨a, mem_actions_of_action? ha, hplan, hwrites⟩
  · rintro (⟨a, ha, hwaits, hwrites⟩ | ⟨a, ha, hplan, hwrites⟩)
    -- an action writes after the bindings what it wrote before them
    all_goals
      obtain ⟨a', ha', halso⟩ :=
        exists_of_rel_left (hrel a.id) (mem_actions.1 ha)
      rw [← halso.writes] at hwrites
    · exact ⟨a', mem_actions_of_action? ha',
        (halso.waits k).2 (.inl hwaits), hwrites⟩
    · exact ⟨a', mem_actions_of_action? ha',
        (halso.waits k).2 (.inr hplan), hwrites⟩

/-! ## An addition -/

/-- Keys flow after an addition as they did before, and through what is
added. -/
theorem flows_addActions {added : List Action} (fresh : v.Fresh added)
    {k k' : String} :
    (v.addActions added).Flows k k' ↔ v.Flows k k'
      ∨ ∃ a ∈ added, k ∈ a.watchedKeys ∧ k' ∈ a.mutatedKeys := by
  simp only [Flows, mem_actions_addActions fresh, or_and_right, exists_or]

theorem flows_normalizer {o : UnreadOutput} {id k k' : String} :
    k ∈ (o.normalizer id).watchedKeys ∧ k' ∈ (o.normalizer id).mutatedKeys
      ↔ k = o.key ∧ k' = Key.derived o.key := by
  rw [o.mutatedKeys_normalizer, KeySet.mem_ofList, List.mem_singleton]
  simp [UnreadOutput.normalizer, Action.watchedKeys, Trigger.stateKey?]

theorem flows_mirror {p : MirrorPlan} {id k k' : String} :
    k ∈ (p.mirror id).watchedKeys ∧ k' ∈ (p.mirror id).mutatedKeys
      ↔ k ∈ [p.status, p.error] ∧ k' ∈ [p.uiStatus, p.uiError] := by
  rw [p.mutatedKeys_mirror, KeySet.mem_ofList]
  simp [MirrorPlan.mirror, Action.watchedKeys, Trigger.stateKey?]

/-! ## The flows that repair adds -/

/-- The view once redundant actions are removed and orphans are bound. -/
def settled (v : View) (config : Configuration) : View :=
  (v.settle v.reachability config).view v.prior

/-- The view once the normalizers are added as well. -/
def normalized (v : View) (config : Configuration) : View :=
  (((v.settled config).plannedNormalizers config).foldl
    (fun r o => r.addSynthetic v.prior o.idBase o.normalizer o.record)
    (v.settle v.reachability config)).view v.prior

/-- What repair makes a key flow to. -/
inductive AddedFlow (v : View) (config : Configuration) : String → String → Prop
  /-- An orphan waits for the first key that its templates refer to. -/
  | bound {a : Action} {k k' : String} :
    a ∈ v.actions → a.id ∈ v.reachability.orphans →
    a.id ∉ v.redundantIds v.reachability →
    a.templatedKeys.members.head? = some k → k' ∈ a.mutatedKeys →
    AddedFlow v config k k'
  /-- An action of the snapshot comes forth when the one that shadows it is
  removed. -/
  | uncovered {id k k' : String} {a : Action} :
    id ∈ v.redundantIds v.reachability →
    v.priorActions.find? (·.id == id) = some a → k ∈ a.watchedKeys →
    k' ∈ a.mutatedKeys → AddedFlow v config k k'
  /-- A normalizer copies a result that nobody reads. -/
  | normalized {o : UnreadOutput} :
    o ∈ (v.settled config).plannedNormalizers config →
    AddedFlow v config o.key (Key.derived o.key)
  /-- A mirror copies the status and the error of a call. -/
  | mirrored {p : MirrorPlan} {k k' : String} :
    p ∈ (v.normalized config).plannedMirrors config →
    k ∈ [p.status, p.error] → k' ∈ [p.uiStatus, p.uiError] →
    AddedFlow v config k k'

variable {config : Configuration} {k k' : String}

theorem chooseBinding_eq_stateChange_iff {a : Action} {key : String} :
    v.chooseBinding a = .stateChange key
      ↔ a.templatedKeys.members.head? = some key := by
  unfold chooseBinding
  cases a.templatedKeys.members with
  | cons first rest => simp
  | nil =>
    simp only [List.head?_nil, reduceCtorEq, iff_false]
    split
    · split <;> nofun
    · nofun

/-- The plans are for actions that are left after the removal. -/
theorem boundPlans_subset : ∀ plan ∈ v.boundPlans v.reachability,
    plan.1 ∈ (v.removeActions
      (v.redundantIds v.reachability)).mutation.actions.map (·.id) := by
  intro plan hplan
  obtain ⟨a, ha, rfl⟩ := exists_of_mem_boundPlans hplan
  exact List.mem_map_of_mem ha

/-- An action is bound to a key iff it is an orphan that stays and its templates
refer to the key first. -/
theorem mem_boundPlans_stateChange {a : Action} (ha : a ∈ v.actions) :
    (a.id, .stateChange k) ∈ v.boundPlans v.reachability ↔
      a.id ∈ v.reachability.orphans ∧ a.id ∉ v.redundantIds v.reachability
        ∧ a.templatedKeys.members.head? = some k := by
  rw [mem_boundPlans_iff]
  simp only [chooseBinding_eq_stateChange_iff, mem_actions.1 ha,
    Option.some.injEq, exists_eq_left']

theorem flows_settled :
    (v.settled config).Flows k k' ↔ v.Flows k k'
      ∨ (∃ a ∈ v.actions, a.id ∈ v.reachability.orphans
        ∧ a.id ∉ v.redundantIds v.reachability
        ∧ a.templatedKeys.members.head? = some k
        ∧ k' ∈ a.mutatedKeys)
      ∨ ∃ id ∈ v.redundantIds v.reachability, ∃ a,
        v.priorActions.find? (·.id == id) = some a
          ∧ k ∈ a.watchedKeys ∧ k' ∈ a.mutatedKeys := by
  -- a bound action is one that the removal left, and it is the same in the view
  have hbound :
      (∃ a ∈ (v.removeActions (v.redundantIds v.reachability)).actions,
        (a.id, .stateChange k) ∈ v.boundPlans v.reachability
          ∧ k' ∈ a.mutatedKeys)
      ↔ ∃ a ∈ v.actions, a.id ∈ v.reachability.orphans
        ∧ a.id ∉ v.redundantIds v.reachability
        ∧ a.templatedKeys.members.head? = some k
        ∧ k' ∈ a.mutatedKeys := by
    constructor
    · rintro ⟨a, ha, hplan, hwrites⟩
      have hkept : a.id ∉ v.redundantIds v.reachability := by
        have hleft := boundPlans_subset _ hplan
        obtain ⟨b, hb, hba : b.id = a.id⟩ := List.mem_map.1 hleft
        exact hba ▸ (Mutation.mem_actions_removeActions.1 hb).2
      have hview : a ∈ v.actions :=
        mem_actions.2
          ((action?_removeActions hkept).symm.trans (mem_actions.1 ha))
      obtain ⟨horphan, _, htemplate⟩ :=
        (mem_boundPlans_stateChange hview).1 hplan
      exact ⟨a, hview, horphan, hkept, htemplate, hwrites⟩
    · rintro ⟨a, ha, horphan, hkept, htemplate, hwrites⟩
      exact ⟨a,
        mem_actions.2 ((action?_removeActions hkept).trans (mem_actions.1 ha)),
        (mem_boundPlans_stateChange ha).2 ⟨horphan, hkept, htemplate⟩, hwrites⟩
  -- first the removal, then the bindings
  rw [settled, view_settle, flows_bindAll boundPlans_subset]
  show (v.removeActions (v.redundantIds v.reachability)).Flows k k'
    ∨ (∃ a ∈ (v.removeActions (v.redundantIds v.reachability)).actions, _) ↔ _
  rw [flows_removeActions, hbound, or_assoc, or_congr_right or_comm]

/-- The normalizers are added to the settled view, and then the mirrors are. -/
theorem exists_synthesis (v : View) (config : Configuration) :
    ∃ normalizers mirrors, (v.settled config).Synthesis config
      normalizers mirrors
      ∧ v.normalized config = (v.settled config).addActions normalizers
      ∧ v.repaired v.reachability config
        = (v.settled config).addActions (normalizers ++ mirrors) := by
  obtain ⟨normalizers, mirrors, hsynthesis, hnormalized, hrepaired, _⟩ :=
    (v.settle v.reachability config).exists_synthesize v.prior config
  exact ⟨normalizers, mirrors, hsynthesis, hnormalized, hrepaired⟩

/-- Keys flow among normalizers as they are planned. -/
theorem flows_normalized :
    (v.normalized config).Flows k k' ↔ (v.settled config).Flows k k'
      ∨ ∃ o ∈ (v.settled config).plannedNormalizers config,
        k = o.key ∧ k' = Key.derived o.key := by
  obtain ⟨normalizers, mirrors, hsynthesis, hnormalized, _⟩ :=
    exists_synthesis v config
  rw [hnormalized, flows_addActions hsynthesis.freshNormalizers,
    exists_made_iff hsynthesis.normalizersMade fun _ _ => flows_normalizer]

/-- Keys flow among mirrors as they are planned. -/
theorem flows_mirrored :
    (v.repaired v.reachability config).Flows k k'
      ↔ (v.normalized config).Flows k k'
      ∨ ∃ p ∈ (v.normalized config).plannedMirrors config,
        k ∈ [p.status, p.error] ∧ k' ∈ [p.uiStatus, p.uiError] := by
  obtain ⟨normalizers, mirrors, hsynthesis, hnormalized, hrepaired⟩ :=
    exists_synthesis v config
  rw [hrepaired, addActions_append, flows_addActions hsynthesis.freshMirrors,
    exists_made_iff hsynthesis.mirrorsMade fun _ _ => flows_mirror,
    ← hnormalized]

/-- In a repaired view keys flow as they did before and as repair makes them. -/
theorem flows_repaired :
    (v.repaired v.reachability config).Flows k k'
      ↔ v.Flows k k' ∨ v.AddedFlow config k k' := by
  rw [flows_mirrored, flows_normalized, flows_settled]
  constructor
  · rintro (((hflow | ⟨a, ha, horphan, hkept, htemplate, hwrites⟩
      | ⟨id, hid, a, ha, hwaits, hwrites⟩) | ⟨o, ho, rfl, rfl⟩)
      | ⟨p, hp, hk, hk'⟩)
    · exact .inl hflow
    · exact .inr (.bound ha horphan hkept htemplate hwrites)
    · exact .inr (.uncovered hid ha hwaits hwrites)
    · exact .inr (.normalized ho)
    · exact .inr (.mirrored hp hk hk')
  · rintro (hflow | hadded)
    · exact .inl (.inl (.inl hflow))
    · cases hadded with
      | bound ha horphan hkept htemplate hwrites =>
        exact .inl
          (.inl (.inr (.inl ⟨_, ha, horphan, hkept, htemplate, hwrites⟩)))
      | uncovered hid ha hwaits hwrites =>
        exact .inl (.inl (.inr (.inr ⟨_, hid, _, ha, hwaits, hwrites⟩)))
      | normalized ho => exact .inl (.inr ⟨_, ho, rfl, rfl⟩)
      | mirrored hp hk hk' => exact .inr ⟨_, hp, hk, hk'⟩

/-! ## Loops after repair -/

/-- A loop of two relations together uses the second, if the first alone has
none. -/
theorem exists_of_transGen_or {α : Type} {r s : α → α → Prop}
    (hacyclic : ∀ x, ¬ TransGen r x x) {x : α}
    (hloop : TransGen (fun x y => r x y ∨ s x y) x x) :
    ∃ y z, s y z ∧ ReflTransGen (fun x y => r x y ∨ s x y) z y := by
  have hsplit : ∀ {y : α}, TransGen (fun x y => r x y ∨ s x y) x y →
      TransGen r x y
      ∨ ∃ z w, s z w ∧ ReflTransGen (fun x y => r x y ∨ s x y) x z
        ∧ ReflTransGen (fun x y => r x y ∨ s x y) w y := by
    intro y hchain
    induction hchain with
    | single hstep =>
      rcases hstep with hr | hs
      · exact .inl (.single hr)
      · exact .inr ⟨_, _, hs, .refl, .refl⟩
    | tail hchain hstep ih =>
      rcases ih with hr | ⟨z, w, hs, hbefore, hafter⟩
      · rcases hstep with hstep | hs
        · exact .inl (hr.tail hstep)
        · exact .inr ⟨_, _, hs, hchain.to_reflTransGen, .refl⟩
      · exact .inr ⟨z, w, hs, hbefore, hafter.tail hstep⟩
  rcases hsplit hloop with hr | ⟨z, w, hs, hbefore, hafter⟩
  · exact absurd hr (hacyclic x)
  · exact ⟨z, w, hs, hafter.trans hbefore⟩

/-- The repair of a view in which actions wake each other in no loop leaves no
loop iff no flow that it adds closes one, with the flows that were there and the
others that it adds. -/
theorem acyclic_repaired_iff (v : View) (config : Configuration)
    (hacyclic : ∀ i, ¬ TransGen v.Wakes i i) :
    (∀ i, ¬ TransGen (v.repaired v.reachability config).Wakes i i) ↔
      ∀ k k', v.AddedFlow config k k' →
        ¬ ReflTransGen (fun k k' => v.Flows k k'
          ∨ v.AddedFlow config k k') k' k := by
  have hflows : (v.repaired v.reachability config).Flows
      = fun k k' => v.Flows k k' ∨ v.AddedFlow config k k' := by
    funext k k'
    exact propext flows_repaired
  have hbefore : ∀ k, ¬ TransGen v.Flows k k := by
    rw [← not_exists, ← exists_wakes_loop_iff, not_exists]
    exact hacyclic
  rw [← not_exists, exists_wakes_loop_iff, hflows]
  constructor
  · exact fun hnone k k' hadded hback =>
      hnone ⟨k, TransGen.head' (.inr hadded) hback⟩
  · rintro hnone ⟨k, hloop⟩
    obtain ⟨k, k', hadded, hback⟩ := exists_of_transGen_or hbefore hloop
    exact hnone k k' hadded hback

/-- A call to an integration whose result nobody reads, with one trigger. -/
def orderCall (trigger : Trigger) : View where
  mutation := { Mutation.empty with
    actionsAdded := [
      { Action.bare "reload" .integrationCall with
        config := [(ConfigKey.assignTo, .string "rawOrders")]
        triggeredBy := [trigger] }] }
  prior := none

/-- A call on the load of a page gets a normalizer, which closes no loop. -/
theorem acyclic_repaired_orderCall :
    let v := orderCall (.lifecycle Lifecycle.pageLoad)
    (∀ i, ¬ TransGen v.Wakes i i)
      ∧ (v.repaired v.reachability .default).Flows "rawOrders" "orders"
      ∧ ∀ i, ¬ TransGen (v.repaired v.reachability .default).Wakes i i := by
  intro v
  have hactions : ∀ a ∈ v.actions, a.watchedKeys = [] := by decide +kernel
  have hflows : ∀ k k', ¬ v.Flows k k' := by
    rintro k k' ⟨a, ha, hwaits, _⟩
    rw [hactions a ha] at hwaits
    exact List.not_mem_nil hwaits
  have hacyclic : ∀ i, ¬ TransGen v.Wakes i i := by
    rw [← not_exists, exists_wakes_loop_iff]
    rintro ⟨k, hloop⟩
    obtain ⟨k', hstep, _⟩ := TransGen.head'_iff.1 hloop
    exact hflows k k' hstep
  -- the normalizer is all that is added
  have hadded : ∀ k k', v.AddedFlow .default k k' →
      k = "rawOrders" ∧ k' = "orders" := by
    intro k k' hadded
    cases hadded with
    | bound _ horphan =>
      have hnone : v.reachability.orphans = [] := by decide +kernel
      rw [hnone] at horphan
      cases horphan
    | uncovered _ hfound => cases hfound
    | normalized ho =>
      have hplan :
          (v.settled .default).plannedNormalizers .default
            = [⟨"reload", "rawOrders"⟩] := by
        decide +kernel
      rw [hplan, List.mem_singleton] at ho
      rw [ho]
      exact ⟨rfl, by decide +kernel⟩
    | mirrored hp =>
      have hnone : (v.normalized .default).plannedMirrors .default = [] := by
        decide +kernel
      rw [hnone] at hp
      cases hp
  have hnormalized :
      v.AddedFlow .default "rawOrders" (Key.derived "rawOrders") :=
    .normalized (o := ⟨"reload", "rawOrders"⟩) (by decide +kernel)
  have hderived : Key.derived "rawOrders" = "orders" := by decide +kernel
  rw [hderived] at hnormalized
  refine ⟨hacyclic, flows_repaired.2 (.inr hnormalized),
    (acyclic_repaired_iff v .default hacyclic).2 fun k k' hflow hback => ?_⟩
  obtain ⟨rfl, rfl⟩ := hadded k k' hflow
  rcases ReflTransGen.cases_head hback with heq | ⟨_, hstep, _⟩
  · exact absurd heq (by decide)
  · rcases hstep with hstep | hstep
    · exact hflows _ _ hstep
    · exact absurd (hadded _ _ hstep).1 (by decide)

/-- A call that waits for the key that its result is normalized into is in no
loop before repair, and in one after it. -/
theorem closes_loop_orderCall :
    ¬ ∀ (m : Mutation) (prior : Option Snapshot) (config : Configuration),
      let v : View := ⟨m, prior⟩
      (∀ i, ¬ TransGen v.Wakes i i) →
        ∀ i, ¬ TransGen (v.repaired v.reachability config).Wakes i i := by
  intro hclaim
  let v := orderCall (.stateChange "orders")
  have hactions : ∀ a ∈ v.actions,
      a.watchedKeys = ["orders"] ∧ "orders" ∉ a.mutatedKeys := by
    decide +kernel
  -- a loop would go out of the key that is waited for and come into it, but no
  -- action writes it
  have hacyclic : ∀ i, ¬ TransGen v.Wakes i i := by
    rw [← not_exists, exists_wakes_loop_iff]
    rintro ⟨k, hloop⟩
    obtain ⟨_, ⟨a, ha, hwaits, _⟩, _⟩ := TransGen.head'_iff.1 hloop
    obtain ⟨_, _, ⟨b, hb, _, hwrites⟩⟩ := TransGen.tail'_iff.1 hloop
    obtain rfl : k = "orders" := by simpa [(hactions a ha).1] using hwaits
    exact (hactions b hb).2 hwrites
  have hderived : Key.derived "rawOrders" = "orders" := by decide +kernel
  have hback : v.AddedFlow .default "rawOrders" (Key.derived "rawOrders") :=
    .normalized (o := ⟨"reload", "rawOrders"⟩) (by decide +kernel)
  have hforth : v.Flows "orders" "rawOrders" := by
    refine ⟨_, List.mem_cons_self, ?_, ?_⟩ <;> decide +kernel
  rw [hderived] at hback
  -- from the key to the result by the call, and back by the normalizer
  obtain ⟨i, hloop⟩ :=
    (exists_wakes_loop_iff (v.repaired v.reachability .default)).2
      ⟨"orders", .tail (.single (flows_repaired.2 (.inl hforth)))
        (flows_repaired.2 (.inr hback))⟩
  exact hclaim v.mutation v.prior .default hacyclic i hloop

end View

end IntentGraph
