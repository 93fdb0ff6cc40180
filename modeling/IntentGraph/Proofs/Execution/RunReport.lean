import IntentGraph.Proofs.Execution.DryRun
import IntentGraph.Proofs.Reachability.ClosedForm

/-!
# What a dry run reports

The report of a dry run is read off its history, the ids that ran with the last
one first. Each step puts one id there, so the history is as long as the budget
when that is exceeded (`View.length_history_runFor`), and it names only actions
that can start. The actions visited are its ids, each once, so an id ran again
exactly when the steps are more than the visits (`View.reentrant_eq_empty_iff`).
There are no more visits than actions: a budget larger than their number is
exceeded only through an action that ran again, and the diagnostic names it.
-/

namespace IntentGraph

namespace RunReport

variable {r : RunReport}

/-- The message names what ran again. -/
theorem overrunMessage_eq (h : r.reentrant ≠ ∅) :
    r.overrunMessage = "dry run exceeded its budget of " ++ toString r.budget
      ++ " steps; possible infinite trigger loop"
      ++ (" through " ++ ", ".intercalate r.reentrant) := by
  have hsome : ¬ r.reentrant.members.isEmpty = true := by
    rwa [List.isEmpty_iff, KeySet.members_eq_nil]
  unfold overrunMessage
  exact congrArg (_ ++ ·) (if_neg hsome)

/-- A run over its budget has a diagnostic. -/
theorem diagnostic?_eq (h : r.outcome = .stepBudgetExceeded) :
    r.diagnostic? = some ⟨.simulate, "step_budget_exceeded", none,
      r.overrunMessage⟩ := by
  have hrunning : ¬ r.isCompleted = true := by
    rw [isCompleted, h]
    decide
  exact if_neg hrunning

end RunReport

namespace View

variable {v : View} {budget : Nat}

/-! ## Reading the report -/

/-- The run that is reported. -/
def runWithin (v : View) (budget : Nat) : Run :=
  (v.runFor budget ⟨v.pageLoadStarts, []⟩).2

theorem mem_visited {id : String} :
    id ∈ (v.simulate budget).visited ↔ id ∈ (v.runWithin budget).history := by
  show id ∈ distinctBy _ (v.runWithin budget).history.reverse ↔ _
  rw [mem_distinctBy_id, List.mem_reverse]

theorem mem_keysSet {key : String} :
    key ∈ (v.simulate budget).keysSet ↔ ∃ id ∈ (v.runWithin budget).history,
      key ∈ v.writes id := by
  show key ∈ KeySet.ofList ((v.simulate budget).visited.flatMap v.writes) ↔ _
  simp only [KeySet.mem_ofList, List.mem_flatMap, mem_visited]

/-- The reentrant actions are those that the history names more than once. -/
theorem mem_reentrant {id : String} :
    id ∈ (v.simulate budget).reentrant
      ↔ 1 < (v.runWithin budget).history.count id := by
  show id ∈ KeySet.ofList ((v.simulate budget).visited.filter fun id =>
    1 < (v.runWithin budget).history.count id) ↔ _
  rw [KeySet.mem_ofList, List.mem_filter, decide_eq_true_eq, mem_visited,
    and_iff_right_iff_imp]
  intro hcount
  exact List.count_pos_iff.1 (Nat.zero_lt_of_lt hcount)

theorem nodup_visited (v : View) (budget : Nat) :
    (v.simulate budget).visited.Nodup :=
  nodup_distinctBy_id _

/-! ## Steps -/

/-- A run takes no more steps than are left, and all of them if it is not
over. -/
theorem length_history_runFor (v : View) (left : Nat) (r : Run) :
    (v.runFor left r).2.history.length ≤ r.history.length + left
      ∧ ((v.runFor left r).1 = .stepBudgetExceeded →
        (v.runFor left r).2.history.length = r.history.length + left) := by
  induction left generalizing r with
  | zero => exact ⟨Nat.le_refl _, fun _ => rfl⟩
  | succ left ih =>
    obtain ⟨queue, history⟩ := r
    cases queue with
    | nil => exact ⟨Nat.le_add_right _ _, nofun⟩
    | cons id rest =>
      -- the step that is taken puts its id on the history
      have hrest := ih (v.runStep id rest ⟨id :: rest, history⟩)
      have hlength :
          history.length + (left + 1) = (id :: history).length + left := by
        rw [List.length_cons]
        omega
      show (v.runFor left _).2.history.length ≤ history.length + (left + 1)
        ∧ (_ → _ = history.length + (left + 1))
      rw [hlength]
      exact hrest

theorem steps_le (v : View) (budget : Nat) :
    (v.simulate budget).steps ≤ budget := by
  have hle := (v.length_history_runFor budget ⟨v.pageLoadStarts, []⟩).1
  rwa [List.length_nil, Nat.zero_add] at hle

theorem steps_eq_of_exceeded
    (h : (v.simulate budget).outcome = .stepBudgetExceeded) :
    (v.simulate budget).steps = budget := by
  have heq := (v.length_history_runFor budget ⟨v.pageLoadStarts, []⟩).2 h
  rwa [List.length_nil, Nat.zero_add] at heq

/-! ## Visits -/

/-- What runs on load can start. -/
theorem RunsOnLoad.canStart {id : String} (h : v.RunsOnLoad id) :
    v.CanStart id := by
  obtain ⟨start, hstart, hchain⟩ := h
  cases hchain with
  | refl =>
    obtain ⟨a, ha, hstarts⟩ := hstart
    refine ⟨a, mem_actions_of_action? ha, id_of_action? ha, .inr ?_⟩
    rcases hstarts with hown | ⟨p, hp, e, he, _, hid⟩
    · exact .inr ⟨_, hown, .lifecycle _⟩
    · exact .inl ⟨p, hp, e, he, hid⟩
  | tail _ hwakes => exact hwakes.canStart

/-- There are no more visits than actions. -/
theorem length_visited_le (v : View) (budget : Nat) :
    (v.simulate budget).visited.length ≤ v.actions.length := by
  have hsub : (v.simulate budget).visited ⊆ v.actionIds :=
    fun id hid => (runsOnLoad_of_mem_visited hid).mem
  rw [← length_actionIds]
  exact ((v.nodup_visited budget).subperm hsub).length_le

/-- No action ran again iff there are as many visits as steps. -/
theorem reentrant_eq_empty_iff :
    (v.simulate budget).reentrant = ∅
      ↔ (v.simulate budget).steps = (v.simulate budget).visited.length := by
  have hsteps :
      (v.simulate budget).steps = (v.runWithin budget).history.reverse.length :=
    List.length_reverse.symm
  have hvisited : (v.simulate budget).visited = distinctBy id
      (v.runWithin budget).history.reverse := rfl
  -- either side says that the history names no id twice
  rw [hsteps, hvisited, eq_comm (a := List.length _),
    length_distinctBy_id_eq_iff, List.nodup_reverse,
    List.nodup_iff_count_le_one, ← KeySet.members_eq_nil,
    List.eq_nil_iff_forall_not_mem]
  simp only [KeySet.mem_members, mem_reentrant, Nat.not_lt]

/-- A budget larger than the number of actions is exceeded only if an action ran
again. -/
theorem reentrant_ne_empty
    (h : (v.simulate budget).outcome = .stepBudgetExceeded)
    (hlt : v.actions.length < budget) : (v.simulate budget).reentrant ≠ ∅ := by
  intro hnil
  have hsteps := reentrant_eq_empty_iff.1 hnil
  have hvisits := v.length_visited_le budget
  rw [steps_eq_of_exceeded h] at hsteps
  omega

/-- The accounts of a dry run. What it visits, it visits once, and these are
actions of the view that are reachable if the mutation has them. It takes at
most the steps of its budget, and all of them if that is exceeded. The reentrant
actions ascend and were visited, and there are none iff there are as many visits
as steps. If the budget is exceeded and larger than the number of actions, there
are some, and the diagnostic names them. -/
theorem simulate_accounts (v : View) (budget : Nat) :
    let report := v.simulate budget
    (report.visited.Nodup ∧ ∀ id ∈ report.visited, id ∈ v.actionIds
      ∧ (id ∈ v.mutation.actions.map (·.id) → id ∈ v.reachability.reachable))
    ∧ (report.steps ≤ budget
      ∧ (report.outcome = .stepBudgetExceeded → report.steps = budget))
    ∧ (report.reentrant.members.Pairwise (· < ·)
      ∧ report.reentrant.members ⊆ report.visited
      ∧ (report.reentrant = ∅ ↔ report.steps = report.visited.length))
    ∧ (report.outcome = .stepBudgetExceeded → v.actions.length < budget →
      report.reentrant ≠ ∅
        ∧ report.diagnostic? = some ⟨.simulate, "step_budget_exceeded", none,
          "dry run exceeded its budget of " ++ toString budget
            ++ " steps; possible infinite trigger loop"
            ++ (" through " ++ ", ".intercalate report.reentrant)⟩) := by
  intro report
  refine ⟨⟨v.nodup_visited budget, fun id hid => ?_⟩,
    ⟨v.steps_le budget, steps_eq_of_exceeded⟩,
    ⟨KeySet.ascending _, fun id hid => ?_, reentrant_eq_empty_iff⟩,
    fun hexceeded hlt => ?_⟩
  · have hruns := runsOnLoad_of_mem_visited hid
    exact ⟨hruns.mem, fun hmem => mem_reachable.2 ⟨hmem, hruns.canStart⟩⟩
  · have hcount := mem_reentrant.1 hid
    exact mem_visited.2 (List.count_pos_iff.1 (Nat.zero_lt_of_lt hcount))
  · have hreentrant := reentrant_ne_empty hexceeded hlt
    refine ⟨hreentrant, ?_⟩
    rw [RunReport.diagnostic?_eq hexceeded,
      RunReport.overrunMessage_eq hreentrant]
    rfl

/-- The echo runs its second action again and again. A budget as large as the
number of actions is exceeded before any action runs again. -/
theorem simulate_accounts_echo :
    echo.actions.length = 2
    ∧ ((echo.simulate 2).outcome = .stepBudgetExceeded
      ∧ (echo.simulate 2).reentrant = ∅)
    ∧ (echo.simulate 3).outcome = .stepBudgetExceeded
    ∧ (echo.simulate 3).steps = 3
    ∧ (echo.simulate 3).visited = ["fetch", "shape"]
    ∧ (echo.simulate 3).diagnostic?.map (·.message) = some
      "dry run exceeded its budget of 3 steps; possible infinite trigger loop through shape" := by
  have hlength : echo.actions.length = 2 := by decide +kernel
  have hexceeded : (echo.simulate 3).outcome = .stepBudgetExceeded := by
    decide +kernel
  obtain ⟨_, ⟨_, hsteps⟩, _, hnamed⟩ := simulate_accounts echo 3
  obtain ⟨_, hdiagnostic⟩ := hnamed hexceeded (by rw [hlength]; decide)
  have hshape : (echo.simulate 3).reentrant.members = ["shape"] := by
    decide +kernel
  rw [hshape] at hdiagnostic
  refine ⟨hlength, by decide +kernel, hexceeded,
    hsteps hexceeded, by decide +kernel, ?_⟩
  rw [hdiagnostic]
  decide +kernel

end View

end IntentGraph
