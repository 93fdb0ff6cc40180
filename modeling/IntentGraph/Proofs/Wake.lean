import IntentGraph.Execution.DryRun
import IntentGraph.Proofs.View
import Mathlib.Logic.Relation

/-!
# Waking

One action wakes another when it writes a key that the other waits for. Actions
go by their ids here, and an id stands for the entry of the merged view. The
lists that the dry run works with say the same in another form:

* `View.mem_wakes`: the ids that a run of an action puts in the queue are those
  that it wakes;
* `View.mem_writes`: the keys that it marks are those that its action writes;
* `View.mem_pageLoadStarts`: the ids that the queue begins with are those that
  the load of a page starts.

Seen from the keys, a key flows to another when some action waits for the one
and writes the other. Waking has a loop iff this flow has one
(`View.exists_wakes_loop_iff`).
-/

namespace IntentGraph

open Relation

/-! ## Loops of two relations in turn -/

/-- Two relations in turn run through a loop in one order if they do in the
other. -/
theorem exists_transGen_comp {α β : Type} {r : α → β → Prop} {p : β → α → Prop}
    (h : ∃ a, TransGen (Comp r p) a a) : ∃ b, TransGen (Comp p r) b b := by
  have hshift : ∀ {a a' : α}, TransGen (Comp r p) a a' →
      ∃ b b', r a b ∧ ReflTransGen (Comp p r) b b' ∧ p b' a' := by
    intro a a' hchain
    induction hchain with
    | single hstep =>
      obtain ⟨b, hab, hba⟩ := hstep
      exact ⟨b, b, hab, .refl, hba⟩
    | tail _ hstep ih =>
      obtain ⟨b, b', hab, hchain, hba⟩ := ih
      obtain ⟨c, hac, hca⟩ := hstep
      exact ⟨b, c, hab, hchain.tail ⟨_, hba, hac⟩, hca⟩
  obtain ⟨a, hloop⟩ := h
  obtain ⟨b, b', hab, hchain, hba⟩ := hshift hloop
  exact ⟨b, TransGen.tail' hchain ⟨a, hba, hab⟩⟩

namespace View

/-- The action of one id writes a key that the action of another waits for. -/
def Wakes (v : View) (i j : String) : Prop :=
  ∃ a b, v.action? i = some a ∧ v.action? j = some b
    ∧ ∃ key ∈ a.mutatedKeys, key ∈ b.watchedKeys

/-- The load of a page starts the action of an id, by its own trigger or by an
event of a page. -/
def StartsOnLoad (v : View) (id : String) : Prop :=
  ∃ a, v.action? id = some a ∧ (.lifecycle Lifecycle.pageLoad ∈ a.triggeredBy
    ∨ ∃ p ∈ v.pages, ∃ e ∈ p.events, e.kind = Lifecycle.pageLoad
      ∧ e.actionId = id)

variable {v : View}

/-! ## Both ends are actions -/

theorem Wakes.left_mem {i j : String} (h : v.Wakes i j) : i ∈ v.actionIds := by
  obtain ⟨a, _, ha, _⟩ := h
  exact mem_actionIds.2 (by simp [ha])

theorem Wakes.right_mem {i j : String} (h : v.Wakes i j) : j ∈ v.actionIds := by
  obtain ⟨_, b, _, hb, _⟩ := h
  exact mem_actionIds.2 (by simp [hb])

theorem StartsOnLoad.mem {id : String} (h : v.StartsOnLoad id) :
    id ∈ v.actionIds := by
  obtain ⟨a, ha, _⟩ := h
  exact mem_actionIds.2 (by simp [ha])

/-- Every action of the view has an id of its own. -/
theorem nodup_actionIds (v : View) : v.actionIds.Nodup :=
  nodup_map_distinctBy _ _

theorem length_actionIds (v : View) : v.actionIds.length = v.actions.length :=
  List.length_map _

/-! ## The lists of the dry run -/

theorem mem_wakes {i j : String} : j ∈ v.wakes i ↔ v.Wakes i j := by
  unfold wakes Wakes
  cases v.action? i with
  | none => simp
  | some a =>
    simp only [Option.map_some, Option.getD_some, wokenBy, List.mem_flatMap,
      mem_listeners]
    constructor
    · rintro ⟨key, hwrites, b, hb, hwaits⟩
      exact ⟨a, b, rfl, hb, key, hwrites, hwaits⟩
    · rintro ⟨_, b, ⟨⟩, hb, key, hwrites, hwaits⟩
      exact ⟨key, hwrites, b, hb, hwaits⟩

theorem mem_writes {id key : String} :
    key ∈ v.writes id ↔ ∃ a, v.action? id = some a ∧ key ∈ a.mutatedKeys := by
  unfold writes
  cases v.action? id <;> simp

theorem mem_pageLoadStarts {id : String} :
    id ∈ v.pageLoadStarts ↔ v.StartsOnLoad id := by
  simp only [pageLoadStarts, pageEvents, StartsOnLoad,
    Action.hasLifecycleTrigger, List.mem_map, List.mem_filter, Bool.or_eq_true,
    List.contains_iff_mem, List.any_eq_true, List.mem_flatMap, Bool.and_eq_true,
    decide_eq_true_eq]
  constructor
  · rintro ⟨a, ⟨ha, hstart⟩, rfl⟩
    refine ⟨a, mem_actions.1 ha, hstart.imp_right ?_⟩
    rintro ⟨e, ⟨p, hp, he⟩, hkind, hid⟩
    exact ⟨p, hp, e, he, hkind, hid⟩
  · rintro ⟨a, ha, hstart⟩
    have hid := id_of_action? ha
    refine ⟨a, ⟨mem_actions_of_action? ha, hstart.imp_right ?_⟩, hid⟩
    rintro ⟨p, hp, e, he, hkind, htarget⟩
    exact ⟨e, ⟨p, hp, he⟩, hkind, htarget.trans hid.symm⟩

/-! ## The flow of keys -/

/-- Some action waits for one key and writes another. -/
def Flows (v : View) (k k' : String) : Prop :=
  ∃ a ∈ v.actions, k ∈ a.watchedKeys ∧ k' ∈ a.mutatedKeys

theorem wakes_eq_comp (v : View) :
    v.Wakes = Comp (fun i key => key ∈ v.writes i)
      (fun key j => j ∈ v.listeners key) := by
  funext i j
  refine propext ⟨?_, ?_⟩
  · rintro ⟨a, b, ha, hb, key, hwrites, hwaits⟩
    exact ⟨key, mem_writes.2 ⟨a, ha, hwrites⟩, mem_listeners.2 ⟨b, hb, hwaits⟩⟩
  · rintro ⟨key, hwrites, hwaits⟩
    obtain ⟨a, ha, hkey⟩ := mem_writes.1 hwrites
    obtain ⟨b, hb, hkey'⟩ := mem_listeners.1 hwaits
    exact ⟨a, b, ha, hb, key, hkey, hkey'⟩

theorem flows_eq_comp (v : View) :
    v.Flows = Comp (fun key j => j ∈ v.listeners key)
      (fun i key => key ∈ v.writes i) := by
  funext k k'
  refine propext ⟨?_, ?_⟩
  · rintro ⟨a, ha, hwaits, hwrites⟩
    have hfound := mem_actions.1 ha
    exact ⟨a.id, mem_listeners.2 ⟨a, hfound, hwaits⟩,
      mem_writes.2 ⟨a, hfound, hwrites⟩⟩
  · rintro ⟨id, hwaits, hwrites⟩
    obtain ⟨a, ha, hkey⟩ := mem_listeners.1 hwaits
    obtain ⟨b, hb, hkey'⟩ := mem_writes.1 hwrites
    rw [ha] at hb
    cases hb
    exact ⟨a, mem_actions_of_action? ha, hkey, hkey'⟩

/-- Actions wake each other in a loop iff keys flow in one. -/
theorem exists_wakes_loop_iff (v : View) :
    (∃ i, TransGen v.Wakes i i) ↔ ∃ k, TransGen v.Flows k k := by
  rw [wakes_eq_comp, flows_eq_comp]
  exact ⟨exists_transGen_comp, exists_transGen_comp⟩

end View

end IntentGraph
