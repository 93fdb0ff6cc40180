import IntentGraph.Proofs.Execution.RunReport
import Mathlib.Data.Nat.Find

/-!
# What a larger budget changes

The budget is looked at only when something waits, so a run within a larger
budget is the run within the smaller one and what follows it: `View.runFor_add`.
A run that came to its end has nothing to follow and is reported as it was
(`View.simulate_of_completed`). One that did not goes on from where it stood,
and its history only grows at the front (`View.history_suffix`); first visits,
written keys and reentrant actions are read off the history and grow with it. So
the budgets that are enough are all those from some budget on, or none
(`View.exists_threshold`).
-/

namespace IntentGraph.View

variable {v : View} {budget budget' : Nat}

/-! ## Running on -/

/-- Nothing runs when nothing waits. -/
theorem runFor_of_queue_eq_nil (left : Nat) {r : Run} (h : r.queue = []) :
    v.runFor left r = (.completed, r) := by
  obtain ⟨queue, history⟩ := r
  subst h
  cases left <;> rfl

/-- To run for some steps and then for more is to run for all of them. -/
theorem runFor_add (v : View) (left more : Nat) (r : Run) :
    v.runFor (left + more) r = v.runFor more (v.runFor left r).2 := by
  induction left generalizing r with
  | zero =>
    rw [Nat.zero_add]
    rfl
  | succ left ih =>
    obtain ⟨queue, history⟩ := r
    rw [Nat.add_right_comm]
    cases queue with
    | nil =>
      -- the run is over before its first step, whatever is left
      exact (runFor_of_queue_eq_nil more rfl).symm
    | cons id rest => exact ih _

/-- A run that came to its end is the same when more steps are left. -/
theorem runFor_add_of_completed {left : Nat} {r : Run} (more : Nat)
    (h : (v.runFor left r).1 = .completed) :
    v.runFor (left + more) r = v.runFor left r := by
  rw [runFor_add,
    runFor_of_queue_eq_nil more (queue_eq_nil_of_completed h), ← h]

/-- What ran stays in the history, behind what runs later. -/
theorem history_suffix (v : View) (left : Nat) (r : Run) :
    r.history <:+ (v.runFor left r).2.history := by
  induction left generalizing r with
  | zero => exact List.suffix_refl _
  | succ left ih =>
    obtain ⟨queue, history⟩ := r
    cases queue with
    | nil => exact List.suffix_refl _
    | cons id rest =>
      have hrest := ih (v.runStep id rest ⟨id :: rest, history⟩)
      exact (List.suffix_cons id history).trans hrest

/-! ## Reports within two budgets -/

/-- A larger budget reports the same of a run that came to its end. -/
theorem simulate_of_completed (hle : budget ≤ budget')
    (h : (v.simulate budget).outcome = .completed) :
    v.simulate budget' = { v.simulate budget with budget := budget' } := by
  obtain ⟨more, rfl⟩ := Nat.exists_eq_add_of_le hle
  have hrun : v.runFor (budget + more) ⟨v.pageLoadStarts, []⟩
      = v.runFor budget ⟨v.pageLoadStarts, []⟩ := runFor_add_of_completed more h
  unfold simulate
  rw [hrun]

theorem completed_mono (hle : budget ≤ budget')
    (h : (v.simulate budget).outcome = .completed) :
    (v.simulate budget').outcome = .completed := by
  rw [simulate_of_completed hle h]
  exact h

theorem runWithin_suffix (v : View) (hle : budget ≤ budget') :
    (v.runWithin budget).history <:+ (v.runWithin budget').history := by
  obtain ⟨more, rfl⟩ := Nat.exists_eq_add_of_le hle
  show _ <:+ (v.runFor (budget + more) _).2.history
  rw [runFor_add]
  exact v.history_suffix more _

/-- First visits stay first. -/
theorem visited_prefix (v : View) (hle : budget ≤ budget') :
    (v.simulate budget).visited <+: (v.simulate budget').visited :=
  distinctBy_prefix (List.reverse_prefix.2 (v.runWithin_suffix hle))

theorem keysSet_subset (v : View) (hle : budget ≤ budget') :
    (v.simulate budget).keysSet.members
      ⊆ (v.simulate budget').keysSet.members := by
  intro key hkey
  obtain ⟨id, hid, hwrites⟩ := mem_keysSet.1 hkey
  exact mem_keysSet.2 ⟨id, (v.runWithin_suffix hle).subset hid, hwrites⟩

theorem reentrant_subset (v : View) (hle : budget ≤ budget') :
    (v.simulate budget).reentrant.members
      ⊆ (v.simulate budget').reentrant.members := by
  intro id hid
  have hcount := (v.runWithin_suffix hle).sublist.count_le id
  exact mem_reentrant.2 (Nat.lt_of_lt_of_le (mem_reentrant.1 hid) hcount)

/-- The budgets that are enough are all those from some budget on, or none. -/
theorem exists_threshold (v : View) :
    (∀ budget, (v.simulate budget).outcome = .stepBudgetExceeded)
      ∨ ∃ threshold, ∀ budget, (v.simulate budget).outcome = .completed
        ↔ threshold ≤ budget := by
  by_cases hsome : ∃ budget, (v.simulate budget).outcome = .completed
  · refine .inr ⟨Nat.find hsome,
      fun budget => ⟨fun h => Nat.find_min' hsome h, fun hle => ?_⟩⟩
    exact completed_mono hle (Nat.find_spec hsome)
  · refine .inl fun budget => ?_
    cases houtcome : (v.simulate budget).outcome with
    | completed => exact absurd ⟨budget, houtcome⟩ hsome
    | stepBudgetExceeded => rfl

/-- The budget only cuts a dry run short. What came to its end within a budget
is reported the same within a larger one. What did not took every step of its
budget, and a larger one continues its visits and adds to the keys and to the
reentrant actions. -/
theorem simulate_budget (v : View) :
    (∀ budget budget', budget ≤ budget' →
      ((v.simulate budget).outcome = .completed →
        v.simulate budget' = { v.simulate budget with budget := budget' })
      ∧ ((v.simulate budget).outcome = .stepBudgetExceeded →
        (v.simulate budget).steps = budget
        ∧ (v.simulate budget).visited <+: (v.simulate budget').visited
        ∧ (v.simulate budget).keysSet.members
          ⊆ (v.simulate budget').keysSet.members
        ∧ (v.simulate budget).reentrant.members
          ⊆ (v.simulate budget').reentrant.members))
    ∧ ((∀ budget, (v.simulate budget).outcome = .stepBudgetExceeded)
      ∨ ∃ threshold, ∀ budget,
        (v.simulate budget).outcome = .completed ↔ threshold ≤ budget) := by
  refine ⟨fun budget budget' hle =>
    ⟨simulate_of_completed hle, fun hexceeded => ?_⟩, v.exists_threshold⟩
  exact ⟨steps_eq_of_exceeded hexceeded, v.visited_prefix hle,
    v.keysSet_subset hle, v.reentrant_subset hle⟩

/-- The relay comes to its end with the last step of a budget of two. -/
theorem simulate_budget_relay :
    ((relay.simulate 1).outcome = .stepBudgetExceeded
      ∧ (relay.simulate 1).steps = 1
      ∧ (relay.simulate 1).visited <+: (relay.simulate 2).visited
      ∧ (relay.simulate 2).visited = ["fetch", "shape"])
    ∧ (relay.simulate 2).outcome = .completed
    ∧ relay.simulate 100 = { relay.simulate 2 with budget := 100 } := by
  have hexceeded : (relay.simulate 1).outcome = .stepBudgetExceeded := by
    decide +kernel
  have hcompleted : (relay.simulate 2).outcome = .completed := by decide +kernel
  obtain ⟨hbudgets, _⟩ := simulate_budget relay
  obtain ⟨hsteps, hvisited, _⟩ := (hbudgets 1 2 (by decide)).2 hexceeded
  exact ⟨⟨hexceeded, hsteps, hvisited, by decide +kernel⟩, hcompleted,
    (hbudgets 2 100 (by decide)).1 hcompleted⟩

end IntentGraph.View
