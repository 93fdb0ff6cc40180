import IntentGraph.Proofs.Reachability
import IntentGraph.Proofs.Related
import IntentGraph.Repair

/-!
# Removal of actions

Removing the actions of some ids leaves alone what every other id stands for.
Components and pages of the mutation lose the events that name a removed action,
and nothing else.

* `View.action?_removeActions`: the frame of a removal;
* `View.KeepsRunning.removeActions`: an action that stays keeps what makes it
  run;
* `View.not_mem_roots_of_redundant`: what repair removes was out of reach.
-/

namespace IntentGraph

/-! ## Events -/

theorem Component.mem_actionRefs_dropEvents {c : Component} {ids : List String}
    {id : String} :
    id ∈ (c.dropEvents ids).actionRefs ↔ id ∈ c.actionRefs ∧ id ∉ ids := by
  simp only [Component.actionRefs, Component.dropEvents, List.mem_filterMap,
    List.mem_filter]
  constructor
  · rintro ⟨e, ⟨he, hkeep⟩, hid⟩
    rw [hid] at hkeep
    exact ⟨⟨e, he, hid⟩, by simpa using hkeep⟩
  · rintro ⟨⟨e, he, hid⟩, hkeep⟩
    exact ⟨e, ⟨he, by simpa [hid] using hkeep⟩, hid⟩

theorem Page.mem_events_dropEvents {p : Page} {ids : List String}
    {e : PageEvent} :
    e ∈ (p.dropEvents ids).events ↔ e ∈ p.events ∧ e.actionId ∉ ids := by
  simp [Page.dropEvents]

/-- A component none of whose events names a removed action stays as it is. -/
theorem Component.dropEvents_eq_self {c : Component} {ids : List String}
    (h : ∀ id ∈ c.actionRefs, id ∉ ids) : c.dropEvents ids = c := by
  have hevents : (c.events.filter fun e => !e.actionId.any ids.contains)
      = c.events := by
    rw [List.filter_eq_self]
    intro e he
    cases hid : e.actionId with
    | none => rfl
    | some id =>
      have hnot := h id (List.mem_filterMap.2 ⟨e, he, hid⟩)
      simpa using hnot
  rw [Component.dropEvents, hevents]

/-! ## The mutation -/

namespace Mutation

variable {m : Mutation} {ids : List String}

theorem actions_removeActions :
    (m.removeActions ids).actions = m.actions.filter fun a =>
      !ids.contains a.id := by
  simp [actions, removeActions]

theorem components_removeActions :
    (m.removeActions ids).components
      = m.components.map (Component.dropEvents ids) := by
  simp [components, removeActions]

theorem pages_removeActions :
    (m.removeActions ids).pages = m.pages.map (Page.dropEvents ids) := by
  simp [pages, removeActions]

theorem mem_actions_removeActions {a : Action} :
    a ∈ (m.removeActions ids).actions ↔ a ∈ m.actions ∧ a.id ∉ ids := by
  simp [actions_removeActions]

/-- Removing nothing changes nothing. -/
theorem removeActions_nil (m : Mutation) : m.removeActions [] = m := by
  have hcomponent : Component.dropEvents [] = id := by
    funext c
    exact Component.dropEvents_eq_self (by simp)
  have hpage : Page.dropEvents [] = id := by
    funext p
    simp [Page.dropEvents]
  have hkeep : ∀ actions : List Action,
      (actions.filter fun a => !([] : List String).contains a.id)
        = actions := by simp
  simp only [removeActions, hcomponent, hpage, hkeep, List.map_id]

theorem action?_removeActions {id : String} (hid : id ∉ ids) :
    (m.removeActions ids).action? id = m.action? id := by
  rw [action?, actions_removeActions, List.find?_filter, action?]
  congr 1
  funext a
  by_cases ha : a.id = id <;> simp [ha, hid]

theorem action?_removeActions_of_mem {id : String} (hid : id ∈ ids) :
    (m.removeActions ids).action? id = none := by
  rw [action?, actions_removeActions, List.find?_eq_none]
  intro a ha
  have hkeep : a.id ∉ ids := by simpa using (List.mem_filter.1 ha).2
  have hne : a.id ≠ id := fun h => hkeep (h ▸ hid)
  simpa using hne

theorem component?_removeActions {id : String} :
    (m.removeActions ids).component? id
      = (m.component? id).map (Component.dropEvents ids) := by
  rw [component?, components_removeActions, List.find?_map]
  rfl

theorem page?_removeActions {id : String} :
    (m.removeActions ids).page? id
      = (m.page? id).map (Page.dropEvents ids) := by
  rw [page?, pages_removeActions, List.find?_map]
  rfl

end Mutation

/-! ## The view -/

namespace View

variable {v : View} {ids : List String}

/-- The view with the actions of some ids removed from the mutation. -/
def removeActions (v : View) (ids : List String) : View :=
  { v with mutation := v.mutation.removeActions ids }

/-- What is not removed stands for what it stood for. -/
theorem action?_removeActions {id : String} (hid : id ∉ ids) :
    (v.removeActions ids).action? id = v.action? id := by
  rw [action?_eq, action?_eq, removeActions, Mutation.action?_removeActions hid]
  rfl

/-- A component of the view stays or loses its events that name a removed
action. -/
theorem rel_component?_removeActions (v : View) (ids : List String)
    (id : String) :
    Option.Rel (fun c c' => c' = c ∨ c' = c.dropEvents ids) (v.component? id)
      ((v.removeActions ids).component? id) := by
  rw [component?_eq, component?_eq, removeActions,
    Mutation.component?_removeActions]
  exact rel_or (rel_map (fun _ => .inr rfl) _) (rel_refl (fun _ => .inl rfl) _)

/-- A page of the view stays or loses its events that run a removed action. -/
theorem rel_page?_removeActions (v : View) (ids : List String) (id : String) :
    Option.Rel (fun p p' => p' = p ∨ p' = p.dropEvents ids) (v.page? id)
      ((v.removeActions ids).page? id) := by
  rw [page?_eq, page?_eq, removeActions, Mutation.page?_removeActions]
  exact rel_or (rel_map (fun _ => .inr rfl) _) (rel_refl (fun _ => .inl rfl) _)

/-- An action that stays keeps what makes it run. -/
theorem KeepsRunning.removeActions {id : String} (hid : id ∉ ids) :
    KeepsRunning v (v.removeActions ids) id where
  action a ha := ⟨a, (action?_removeActions hid).trans ha, List.Subset.refl _⟩
  component c hc := by
    obtain ⟨c', hc', hdrop⟩ :=
      exists_of_rel_left (rel_component?_removeActions v ids c.id)
        (mem_components.1 hc)
    refine ⟨c', mem_components_of_component? hc',
      id_of_component? hc', fun h => ?_⟩
    rcases hdrop with rfl | rfl
    · exact h
    · exact Component.mem_actionRefs_dropEvents.2 ⟨h, hid⟩
  page p hp := by
    obtain ⟨p', hp', hdrop⟩ :=
      exists_of_rel_left (rel_page?_removeActions v ids p.id) (mem_pages.1 hp)
    refine ⟨p', mem_pages_of_page? hp', ?_⟩
    rintro ⟨e, he, rfl⟩
    rcases hdrop with rfl | rfl
    · exact ⟨e, he, rfl⟩
    · exact ⟨e, Page.mem_events_dropEvents.2 ⟨he, hid⟩, rfl⟩

/-! ## Redundant actions -/

/-- What repair removes is out of reach, and so no event of the view names
it. -/
theorem not_mem_roots_of_redundant {id : String}
    (h : id ∈ v.redundantIds v.reachability) :
    id ∉ v.roots := by
  rw [redundantIds, KeySet.mem_ofList, List.mem_map] at h
  obtain ⟨a, ha, rfl⟩ := h
  obtain ⟨hmem, hredundant⟩ := List.mem_filter.1 ha
  simp only [isRedundant, Bool.and_eq_true, Bool.not_eq_true'] at hredundant
  intro hroot
  have hreach := isReachable_reachability.2 ⟨List.mem_map_of_mem hmem, hroot⟩
  rw [hreach] at hredundant
  simp at hredundant

/-- In a view without orphans nothing is redundant. -/
theorem Closed.redundantIds_eq_empty (closed : v.Closed) :
    v.redundantIds v.reachability = ∅ := by
  rw [← KeySet.members_eq_nil, List.eq_nil_iff_forall_not_mem]
  intro id h
  have hid := KeySet.mem_members.1 h
  rw [redundantIds, KeySet.mem_ofList, List.mem_map] at hid
  obtain ⟨a, ha, rfl⟩ := hid
  exact not_mem_roots_of_redundant h (closed a (List.mem_filter.1 ha).1)

end View

end IntentGraph
