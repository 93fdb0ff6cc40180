import IntentGraph.Proofs.Reachability
import IntentGraph.Proofs.Wake
import Mathlib.Order.Bounds.Basic

/-!
# The closed form of reachability

What the walk is after is the least set of ids that has every action that can
start and is closed under waking. To wait for a change of a key already counts
as a way to start, so this set is what can start and no more
(`View.isLeast_canStart`). The analysis parts the mutation's actions by it.
`View.CanStart` says it of the entries of the view, without the lists that the
walk keeps, and `View.mem_roots_iff_canStart` that these lists agree.
-/

namespace IntentGraph.View

variable {v : View}

/-! ## What can start -/

/-- A trigger that goes off without another action: any but one on an event of a
component that the view does not have, and one of an unknown kind. -/
inductive GoesOff (v : View) : Trigger → Prop
  | lifecycle (event : String) : GoesOff v (.lifecycle event)
  | stateChange (key : String) : GoesOff v (.stateChange key)
  | internal (reason : String) : GoesOff v (.internal reason)
  | componentEvent {c : Component} (event : String) (hc : c ∈ v.components) :
    GoesOff v (.componentEvent c.id event)

/-- An id is that of an action which an event of a component or a page
dispatches to, or which has a trigger that goes off. -/
def CanStart (v : View) (id : String) : Prop :=
  ∃ a ∈ v.actions, a.id = id
    ∧ ((∃ c ∈ v.components, id ∈ c.actionRefs)
      ∨ (∃ p ∈ v.pages, ∃ e ∈ p.events, e.actionId = id)
      ∨ ∃ t ∈ a.triggeredBy, v.GoesOff t)

theorem isRootTrigger_iff {t : Trigger} :
    v.isRootTrigger t = true ↔ v.GoesOff t := by
  constructor
  · intro h
    cases t with
    | lifecycle event => exact .lifecycle event
    | stateChange key => exact .stateChange key
    | internal reason => exact .internal reason
    | componentEvent component event =>
      obtain ⟨c, hc, hid⟩ := List.any_eq_true.1 h
      rw [beq_iff_eq] at hid
      exact hid ▸ .componentEvent event hc
    | unknown raw => cases h
  · intro h
    cases h with
    | lifecycle | stateChange | internal => rfl
    | componentEvent event hc =>
      exact List.any_eq_true.2 ⟨_, hc, beq_self_eq_true _⟩

theorem mem_roots_iff_canStart {id : String} :
    id ∈ v.roots ↔ v.CanStart id := by
  rw [mem_roots, mem_eventActionRefs, or_assoc]
  constructor
  · rintro ⟨hid, hstarts⟩
    obtain ⟨a, ha⟩ := Option.isSome_iff_exists.1 (mem_actionIds.1 hid)
    refine ⟨a, mem_actions_of_action? ha, id_of_action? ha,
      hstarts.imp_right (.imp_right ?_)⟩
    rintro ⟨b, hb, t, ht, hroot⟩
    rw [ha] at hb
    cases hb
    exact ⟨t, ht, isRootTrigger_iff.1 hroot⟩
  · rintro ⟨a, ha, rfl, hstarts⟩
    have hfound := mem_actions.1 ha
    refine ⟨mem_actionIds.2 (by rw [hfound]; rfl),
      hstarts.imp_right (.imp_right ?_)⟩
    rintro ⟨t, ht, hgoes⟩
    exact ⟨a, hfound, t, ht, isRootTrigger_iff.2 hgoes⟩

/-! ## Waking adds nothing -/

theorem Wakes.canStart {i j : String} (h : v.Wakes i j) : v.CanStart j := by
  obtain ⟨a, b, _, hb, key, _, hwaits⟩ := h
  exact mem_roots_iff_canStart.1
    (mem_roots_of_mem_listeners (mem_listeners.2 ⟨b, hb, hwaits⟩))

/-- A set of ids has everything that can start, and whatever one of them
wakes. -/
structure Covers (v : View) (s : Set String) : Prop where
  starts : ∀ id, v.CanStart id → id ∈ s
  wakes : ∀ i ∈ s, ∀ j, v.Wakes i j → j ∈ s

theorem isLeast_canStart (v : View) :
    IsLeast {s | v.Covers s} {id | v.CanStart id} :=
  ⟨⟨fun _ h => h, fun _ _ _ hwakes => hwakes.canStart⟩,
    fun _ hcovers => hcovers.starts⟩

/-! ## The parts of the analysis -/

theorem mem_reachable {id : String} :
    id ∈ v.reachability.reachable ↔ id ∈ v.mutation.actions.map (·.id)
      ∧ v.CanStart id := by
  rw [← mem_roots_iff_canStart, ← isReachable_reachability,
    Reachability.isReachable, KeySet.contains_iff_mem]

theorem mem_orphans_iff_not_canStart {id : String} :
    id ∈ v.reachability.orphans ↔ id ∈ v.mutation.actions.map (·.id)
      ∧ ¬ v.CanStart id := by
  rw [mem_orphans, mem_roots_iff_canStart]

/-- The orphans stand in the order in which their ids first occur, each once. -/
theorem pairwise_orphans (v : View) :
    v.reachability.orphans.Pairwise fun i j =>
      (v.mutation.actions.map (·.id)).idxOf i
        < (v.mutation.actions.map (·.id)).idxOf j := by
  rw [reachability, distinctBy_id_filter]
  exact (pairwise_idxOf_distinctBy _).filter _

/-- Reachability is an exact partition. The least set of ids that has what can
start and is closed under waking is the set of what can start; the ids of the
mutation's actions in it are reachable, and those outside it are orphans, each
once and in the order of their first occurrence. So a walk that has seen what
can start never finds anything else, however far it goes. -/
theorem reachability_exact (v : View) :
    let ids := v.mutation.actions.map (·.id)
    IsLeast {s | v.Covers s} {id | v.CanStart id}
    ∧ (v.reachability.reachable.members.Pairwise (· < ·)
      ∧ ∀ id, id ∈ v.reachability.reachable ↔ id ∈ ids ∧ v.CanStart id)
    ∧ (v.reachability.orphans.Pairwise (fun i j => ids.idxOf i < ids.idxOf j)
      ∧ ∀ id, id ∈ v.reachability.orphans ↔ id ∈ ids ∧ ¬ v.CanStart id)
    ∧ (v.roots.Nodup ∧ (∀ id, id ∈ v.roots ↔ v.CanStart id)
      ∧ ∀ fuel frontier, v.walk fuel frontier v.roots = v.roots) := by
  refine ⟨v.isLeast_canStart, ⟨KeySet.ascending _, fun id => mem_reachable⟩,
    ⟨v.pairwise_orphans, fun id => mem_orphans_iff_not_canStart⟩, ?_⟩
  exact ⟨nodup_distinctBy_id _, fun id => mem_roots_iff_canStart, v.walk_roots⟩

end IntentGraph.View
