import IntentGraph.Proofs.View
import IntentGraph.Reachability

/-!
# What the walk certifies

A listener has a state-change trigger, so it is a root already, and the walk
finds nothing beyond the roots: `View.walk_roots`. Reachability is a local fact
about the entry that an id stands for and the events that name it.

* `View.mem_roots`: an id is a root iff it is that of an action, and an event
  names it or its action has a trigger of its own;
* `View.Closed`: every action of the mutation is a root. `View.orphans_eq_nil`
  says that the analysis decides it;
* `View.KeepsRunning`: what a change of the view has to keep for a root to stay
  one.
-/

namespace IntentGraph.View

/-! ## Roots -/

/-- An event of the view names the action of an id. -/
theorem mem_eventActionRefs {v : View} {id : String} :
    id ∈ v.eventActionRefs ↔
      (∃ c ∈ v.components, id ∈ c.actionRefs)
        ∨ ∃ p ∈ v.pages, ∃ e ∈ p.events, e.actionId = id := by
  simp only [eventActionRefs, pageEvents, KeySet.mem_ofList, List.mem_append,
    List.mem_flatMap, List.mem_map]
  constructor
  · rintro (h | ⟨e, ⟨p, hp, he⟩, hid⟩)
    · exact .inl h
    · exact .inr ⟨p, hp, e, he, hid⟩
  · rintro (h | ⟨p, hp, e, he, hid⟩)
    · exact .inl h
    · exact .inr ⟨e, ⟨p, hp, he⟩, hid⟩

/-- The action of an id has a trigger of its own. -/
def SelfStarting (v : View) (id : String) : Prop :=
  ∃ a, v.action? id = some a ∧ ∃ t ∈ a.triggeredBy, v.isRootTrigger t = true

theorem mem_roots {v : View} {id : String} :
    id ∈ v.roots ↔ id ∈ v.actionIds
      ∧ (id ∈ v.eventActionRefs ∨ v.SelfStarting id) := by
  have hself :
      id ∈ (v.actions.filter fun a =>
        a.triggeredBy.any v.isRootTrigger).map (·.id)
      ↔ v.SelfStarting id := by
    simp only [List.mem_map, List.mem_filter, List.any_eq_true, SelfStarting]
    constructor
    · rintro ⟨a, ⟨ha, ht⟩, rfl⟩
      exact ⟨a, mem_actions.1 ha, ht⟩
    · rintro ⟨a, ha, ht⟩
      exact ⟨a, ⟨mem_actions_of_action? ha, ht⟩, id_of_action? ha⟩
  rw [roots, mem_distinctBy_id, List.mem_filter, List.mem_append, hself]
  simp [and_comm]

/-- Whoever waits for a change of a key is a root. -/
theorem mem_roots_of_mem_listeners {v : View} {key id : String}
    (h : id ∈ v.listeners key) :
    id ∈ v.roots := by
  obtain ⟨a, ha, hwatch⟩ := mem_listeners.1 h
  obtain ⟨t, ht, hkey⟩ := List.mem_filterMap.1 hwatch
  have hroot : v.isRootTrigger t = true := by
    cases t <;> simp [Trigger.stateKey?] at hkey
    rfl
  exact mem_roots.2 ⟨mem_actionIds.2 (by simp [ha]), .inr ⟨a, ha, t, ht, hroot⟩⟩

/-! ## The walk -/

/-- What an action wakes is a root. -/
theorem mem_roots_of_mem_wokenBy {v : View} {a : Action} {id : String}
    (h : id ∈ v.wokenBy a) :
    id ∈ v.roots := by
  obtain ⟨key, _, hlistens⟩ := List.mem_flatMap.1 h
  exact mem_roots_of_mem_listeners hlistens

/-- A walk that has seen the roots finds nothing fresh, wherever it goes on
from. -/
theorem walk_roots (v : View) (fuel : Nat) (frontier : List String) :
    v.walk fuel frontier v.roots = v.roots := by
  induction fuel generalizing frontier with
  | zero => rfl
  | succ fuel ih =>
    cases frontier with
    | nil => rfl
    | cons id frontier =>
      have hseen :
          (((v.action? id).map v.wokenBy).getD []).filter
            (!v.roots.contains ·) = [] := by
        cases v.action? id with
        | none => rfl
        | some a =>
          refine List.filter_eq_nil_iff.2 fun j hj => ?_
          have hroot : v.roots.contains j = true :=
            List.contains_iff_mem.2 (mem_roots_of_mem_wokenBy hj)
          simpa using hroot
      rw [walk, hseen, distinctBy_nil, List.append_nil, List.append_nil]
      exact ih frontier

/-- The walk adds nothing to the roots. -/
theorem reached_eq_roots (v : View) : v.reached = v.roots := v.walk_roots _ _

theorem mem_reached {v : View} {id : String} :
    id ∈ v.reached ↔ id ∈ v.roots := by
  rw [reached_eq_roots]

/-! ## The analysis -/

theorem isReachable_reachability {v : View} {id : String} :
    v.reachability.isReachable id = true ↔
      id ∈ v.mutation.actions.map (·.id) ∧ id ∈ v.roots := by
  simp only [Reachability.isReachable, reachability, KeySet.contains_iff_mem,
    KeySet.mem_ofList, List.mem_filter, List.contains_iff_mem, mem_reached]

theorem mem_orphans {v : View} {id : String} :
    id ∈ v.reachability.orphans ↔ id ∈ v.mutation.actions.map (·.id)
      ∧ id ∉ v.roots := by
  simp only [reachability, mem_distinctBy_id, List.mem_filter,
    Bool.not_eq_true', ← Bool.not_eq_true, List.contains_iff_mem, mem_reached]

/-- Every action of the mutation can run. -/
def Closed (v : View) : Prop := ∀ a ∈ v.mutation.actions, a.id ∈ v.roots

theorem orphans_eq_nil {v : View} : v.reachability.orphans = [] ↔ v.Closed := by
  rw [List.eq_nil_iff_forall_not_mem]
  simp only [mem_orphans, Closed, List.mem_map]
  constructor
  · intro h a ha
    by_contra hroot
    exact h a.id ⟨⟨a, ha, rfl⟩, hroot⟩
  · rintro h _ ⟨⟨a, ha, rfl⟩, hroot⟩
    exact hroot (h a ha)

/-! ## Changes of the view -/

/-- A change of the view keeps what makes an id a root: the triggers of its
action, the events that name it, and all components. -/
structure KeepsRunning (v v' : View) (id : String) : Prop where
  action : ∀ a, v.action? id = some a →
    ∃ a', v'.action? id = some a' ∧ a.triggeredBy ⊆ a'.triggeredBy
  component : ∀ c ∈ v.components,
    ∃ c' ∈ v'.components, c'.id = c.id
      ∧ (id ∈ c.actionRefs → id ∈ c'.actionRefs)
  page : ∀ p ∈ v.pages, ∃ p' ∈ v'.pages,
    (∃ e ∈ p.events, e.actionId = id) → ∃ e ∈ p'.events, e.actionId = id

/-- A trigger that can go off by itself still can when no component went
away. -/
theorem isRootTrigger_mono {v v' : View} {t : Trigger}
    (hcomp : ∀ c ∈ v.components, ∃ c' ∈ v'.components, c'.id = c.id)
    (ht : v.isRootTrigger t = true) : v'.isRootTrigger t = true := by
  cases t with
  | lifecycle => rfl
  | stateChange => rfl
  | internal => rfl
  | unknown => exact ht
  | componentEvent component event =>
    simp only [isRootTrigger, List.any_eq_true, beq_iff_eq] at ht ⊢
    obtain ⟨c, hc, rfl⟩ := ht
    exact hcomp c hc

theorem KeepsRunning.mem_roots {v v' : View} {id : String}
    (keeps : KeepsRunning v v' id) (h : id ∈ v.roots) : id ∈ v'.roots := by
  obtain ⟨hid, hrun⟩ := View.mem_roots.1 h
  obtain ⟨a, ha⟩ := Option.isSome_iff_exists.1 (mem_actionIds.1 hid)
  obtain ⟨a', ha', htriggers⟩ := keeps.action a ha
  refine View.mem_roots.2 ⟨mem_actionIds.2 (by simp [ha']), ?_⟩
  rcases hrun with hevent | ⟨b, hb, t, ht, hroot⟩
  · refine .inl (mem_eventActionRefs.2 ?_)
    rcases mem_eventActionRefs.1 hevent with ⟨c, hc, href⟩ | ⟨p, hp, hwire⟩
    · obtain ⟨c', hc', _, hrefs⟩ := keeps.component c hc
      exact .inl ⟨c', hc', hrefs href⟩
    · obtain ⟨p', hp', hevents⟩ := keeps.page p hp
      exact .inr ⟨p', hp', hevents hwire⟩
  · rw [ha] at hb
    cases hb
    refine .inr ⟨a', ha', t, htriggers ht,
      isRootTrigger_mono (fun c hc => ?_) hroot⟩
    obtain ⟨c', hc', hid', _⟩ := keeps.component c hc
    exact ⟨c', hc', hid'⟩

end IntentGraph.View
