import IntentGraph.Audit
import IntentGraph.View

/-!
# The dry run

A bounded run of a document from the load of its pages. Actions wait in a queue,
each at most once; running one marks the keys it writes and puts every action
that waits for one of them at the end of the queue. The run is over when the
queue is empty, or when the budget of steps is used up while something still
waits.
-/

namespace IntentGraph

/-- How a dry run ended. -/
inductive RunOutcome where
  | completed
  | stepBudgetExceeded
  deriving DecidableEq

/-- The name of an outcome. -/
def RunOutcome.name : RunOutcome → String
  | .completed => "completed"
  | .stepBudgetExceeded => "step_budget_exceeded"

/-- What a dry run did: how it ended, the number of steps and the budget, the
actions in the order of their first run, the keys that were written, and the
actions that ran more than once. -/
structure RunReport where
  outcome : RunOutcome
  steps : Nat
  budget : Nat
  visited : List String
  keysSet : KeySet
  reentrant : KeySet
  deriving DecidableEq

namespace RunReport

/-- Whether the run came to its end. -/
def isCompleted (r : RunReport) : Bool := r.outcome = .completed

/-- The wording of an exceeded budget. -/
def overrunMessage (r : RunReport) : String :=
  "dry run exceeded its budget of " ++ toString r.budget
    ++ " steps; possible infinite trigger loop"
    ++ (if r.reentrant.members.isEmpty then ""
      else " through " ++ ", ".intercalate r.reentrant)

/-- The diagnostic of an exceeded budget. -/
def diagnostic? (r : RunReport) : Option Diagnostic :=
  if r.isCompleted then none
  else some ⟨.simulate, "step_budget_exceeded", none, r.overrunMessage⟩

/-- Writes a report. -/
def encode (r : RunReport) : Json := .record [
  Entry.always "outcome" (.string r.outcome.name),
  Entry.always "steps" (.ofNat r.steps),
  Entry.always "budget" (.ofNat r.budget),
  Entry.always "visited" (.ofStrings r.visited),
  Entry.always "keysSet" (.ofStrings r.keysSet),
  Entry.list "reentrant" Json.string r.reentrant]

end RunReport

/-- A dry run under way: the ids that wait, and the ids that ran, the last one
first. -/
structure Run where
  queue : List String
  history : List String
  deriving DecidableEq

namespace Run

/-- Puts an id at the end of the queue unless it waits already. -/
def enqueue (queue : List String) (id : String) : List String :=
  if queue.contains id then queue else queue ++ [id]

end Run

namespace View

/-- The ids that the load of a page starts. -/
def pageLoadStarts (v : View) : List String :=
  (v.actions.filter fun a => a.hasLifecycleTrigger Lifecycle.pageLoad
    || v.pageEvents.any fun e =>
      e.kind = Lifecycle.pageLoad && e.actionId = a.id).map (·.id)

/-- The ids that a run of an action wakes. -/
def wakes (v : View) (id : String) : List String :=
  ((v.action? id).map v.wokenBy).getD []

/-- The keys that a run of an action writes. -/
def writes (v : View) (id : String) : List String :=
  ((v.action? id).map (·.mutatedKeys.members)).getD []

/-- Runs the first action of the queue. -/
def runStep (v : View) (id : String) (rest : List String) (r : Run) : Run :=
  ⟨(v.wakes id).foldl Run.enqueue rest, id :: r.history⟩

/-- Runs on for at most the steps that are left. -/
def runFor (v : View) : (left : Nat) → Run → RunOutcome × Run
  | 0, r => (if r.queue.isEmpty then .completed else .stepBudgetExceeded, r)
  | left + 1, r =>
    match r.queue with
    | [] => (.completed, r)
    | id :: rest => v.runFor left (v.runStep id rest r)

/-- The dry run within a budget of steps. -/
def simulate (v : View) (budget : Nat) : RunReport :=
  let (outcome, r) := v.runFor budget ⟨v.pageLoadStarts, []⟩
  let visited := distinctBy id r.history.reverse
  { outcome
    steps := r.history.length
    budget
    visited
    keysSet := KeySet.ofList (visited.flatMap v.writes)
    reentrant :=
      KeySet.ofList (visited.filter fun id => 1 < r.history.count id) }

end View

end IntentGraph
