import IntentGraph.Proofs.Wake
import Mathlib.Data.List.Perm.Subperm
import Mathlib.Logic.Relation

/-!
# What the dry run finds

An action runs on load when a chain of waking leads to it from one that the load
of a page starts. The dry run finds exactly these, unless one of them leads into
a loop, and then no budget is enough (`View.simulate_exact`).

* An endless id leads into a loop. When one waits, one waits after the next step
  (`Endless.exists_wakes`, `exists_endless_runStep`), so the queue is never
  empty.
* Without endless ids the queue is worked off in rounds: the first is what the
  load starts, and what a round wakes belongs to the next (`View.InRound`). An
  action of round `k` is the end of a chain of `k + 1` different actions, so
  there are no more rounds than actions (`InRound.lt`), and as an action waits
  at most once, no round is longer (`View.Rounds`).
* What ran or waits is closed under waking but for what waits (`View.Explored`),
  so that an empty queue leaves nothing out.
-/

namespace IntentGraph

open Relation

/-! ## The queue -/

namespace Run

theorem enqueue_eq (queue : List String) (id : String) :
    enqueue queue id = queue ++ (if id ∈ queue then [] else [id]) := by
  unfold enqueue
  by_cases h : id ∈ queue <;> simp [h]

theorem mem_enqueue {queue : List String} {x id : String} :
    x ∈ enqueue queue id ↔ x ∈ queue ∨ x = id := by
  rw [enqueue_eq]
  by_cases h : id ∈ queue
  · simp only [h, if_true, List.append_nil, iff_self_or]
    rintro rfl
    exact h
  · simp [h]

theorem nodup_enqueue {queue : List String} (h : queue.Nodup) (id : String) :
    (enqueue queue id).Nodup := by
  rw [enqueue_eq]
  by_cases hid : id ∈ queue
  · simpa [hid] using h
  · rw [if_neg hid, List.nodup_append]
    refine ⟨h, List.nodup_singleton id, fun x hx y hy hxy => hid ?_⟩
    rwa [← List.mem_singleton.1 hy, ← hxy]

theorem mem_foldl_enqueue {queue woken : List String} {x : String} :
    x ∈ woken.foldl enqueue queue ↔ x ∈ queue ∨ x ∈ woken := by
  induction woken generalizing queue with
  | nil => simp
  | cons id woken ih =>
    rw [List.foldl_cons, ih, mem_enqueue, List.mem_cons, or_assoc]

theorem nodup_foldl_enqueue {queue : List String} (h : queue.Nodup)
    (woken : List String) :
    (woken.foldl enqueue queue).Nodup := by
  induction woken generalizing queue with
  | nil => exact h
  | cons id woken ih => exact ih (nodup_enqueue h id)

/-- What waits keeps its place, and what joins it was woken. -/
theorem exists_foldl_enqueue (queue woken : List String) :
    ∃ fresh, fresh ⊆ woken ∧ woken.foldl enqueue queue = queue ++ fresh := by
  induction woken generalizing queue with
  | nil => exact ⟨[], List.nil_subset _, by simp⟩
  | cons id woken ih =>
    obtain ⟨fresh, hfresh, heq⟩ := ih (enqueue queue id)
    refine ⟨(if id ∈ queue then [] else [id]) ++ fresh, ?_, ?_⟩
    · refine List.append_subset.2 ⟨?_,
        fun j hj => List.mem_cons_of_mem _ (hfresh hj)⟩
      split <;> simp
    · rw [List.foldl_cons, heq, enqueue_eq, List.append_assoc]

end Run

namespace View

variable {v : View}

/-- A run that came to its end left nothing waiting. -/
theorem queue_eq_nil_of_completed {left : Nat} {r : Run}
    (h : (v.runFor left r).1 = .completed) :
    (v.runFor left r).2.queue = [] := by
  induction left generalizing r with
  | zero =>
    cases hq : r.queue with
    | nil => simpa [runFor] using hq
    | cons id rest => simp [runFor, hq] at h
  | succ left ih =>
    unfold runFor at h ⊢
    split
    · next hq => exact hq
    · next id rest hq =>
      rw [hq] at h
      exact ih h

/-! ## What runs, and loops -/

/-- A chain of waking leads to an id from one that the load of a page starts. -/
def RunsOnLoad (v : View) (id : String) : Prop :=
  ∃ start, v.StartsOnLoad start ∧ ReflTransGen v.Wakes start id

/-- A chain of waking leads from an id into a loop. -/
def Endless (v : View) (id : String) : Prop :=
  ∃ c, ReflTransGen v.Wakes id c ∧ TransGen v.Wakes c c

/-- A loop of waking can be reached from the load of a page. -/
def LoopsOnLoad (v : View) : Prop :=
  ∃ start, v.StartsOnLoad start ∧ v.Endless start

theorem RunsOnLoad.mem {id : String} (h : v.RunsOnLoad id) :
    id ∈ v.actionIds := by
  obtain ⟨start, hstart, hchain⟩ := h
  cases hchain with
  | refl => exact hstart.mem
  | tail _ hwakes => exact hwakes.right_mem

/-- What runs on load lies on no loop, unless one can be reached. -/
theorem RunsOnLoad.not_transGen {id : String} (h : v.RunsOnLoad id)
    (hloop : ¬ v.LoopsOnLoad) :
    ¬ TransGen v.Wakes id id := by
  obtain ⟨start, hstart, hchain⟩ := h
  exact fun hcycle => hloop ⟨start, hstart, id, hchain, hcycle⟩

/-! ## A loop is never left -/

/-- An endless id wakes an endless one. -/
theorem Endless.exists_wakes {id : String} (h : v.Endless id) :
    ∃ j, v.Wakes id j ∧ v.Endless j := by
  obtain ⟨c, hchain, hcycle⟩ := h
  rcases ReflTransGen.cases_head hchain with rfl | ⟨j, hwakes, hchain⟩
  · obtain ⟨j, hwakes, hback⟩ := TransGen.head'_iff.1 hcycle
    exact ⟨j, hwakes, id, hback, hcycle⟩
  · exact ⟨j, hwakes, c, hchain, hcycle⟩

/-- When something endless waits, something endless waits after the next
step. -/
theorem exists_endless_runStep {id : String} {rest : List String} (r : Run)
    (h : ∃ e ∈ id :: rest, v.Endless e) :
    ∃ e ∈ (v.runStep id rest r).queue, v.Endless e := by
  obtain ⟨e, he, hendless⟩ := h
  rcases List.mem_cons.1 he with rfl | he
  · obtain ⟨j, hwakes, hj⟩ := hendless.exists_wakes
    exact ⟨j, Run.mem_foldl_enqueue.2 (.inr (mem_wakes.2 hwakes)), hj⟩
  · exact ⟨e, Run.mem_foldl_enqueue.2 (.inl he), hendless⟩

theorem runFor_exceeded {left : Nat} {r : Run}
    (h : ∃ e ∈ r.queue, v.Endless e) :
    (v.runFor left r).1 = .stepBudgetExceeded := by
  induction left generalizing r with
  | zero =>
    obtain ⟨e, he, _⟩ := h
    simp [runFor, List.ne_nil_of_mem he]
  | succ left ih =>
    cases hq : r.queue with
    | nil => simp [hq] at h
    | cons id rest =>
      rw [hq] at h
      unfold runFor
      rw [hq]
      exact ih (exists_endless_runStep r h)

/-! ## Rounds -/

/-- An id belongs to a round: to the first if the load of a page starts it, and
else to the one after that of what wakes it. -/
inductive InRound (v : View) : Nat → String → Prop
  | start {id : String} : v.StartsOnLoad id → InRound v 0 id
  | next {k : Nat} {i j : String} : InRound v k i → v.Wakes i j →
    InRound v (k + 1) j

theorem InRound.runsOnLoad {k : Nat} {id : String} (h : v.InRound k id) :
    v.RunsOnLoad id := by
  induction h with
  | start hstart => exact ⟨_, hstart, .refl⟩
  | next _ hwakes ih =>
    obtain ⟨start, hstart, hchain⟩ := ih
    exact ⟨start, hstart, hchain.tail hwakes⟩

/-- An id of a round is the end of a chain with one id of every round before.
Without a loop these are all different. -/
theorem InRound.exists_chain (hloop : ¬ v.LoopsOnLoad) {k : Nat} {id : String}
    (h : v.InRound k id) :
    ∃ chain : List String, chain.length = k + 1 ∧ chain.Nodup
      ∧ ∀ i ∈ chain, i ∈ v.actionIds ∧ ReflTransGen v.Wakes i id := by
  induction h with
  | @start id hstart =>
    refine ⟨[id], rfl, List.nodup_singleton id, fun i hi => ?_⟩
    obtain rfl := List.mem_singleton.1 hi
    exact ⟨hstart.mem, .refl⟩
  | @next k i j hround hwakes ih =>
    obtain ⟨chain, hlength, hnodup, hchain⟩ := ih
    have hj : v.RunsOnLoad j := (hround.next hwakes).runsOnLoad
    -- an id on the chain leads here, so that to come back to it is a loop
    have hfresh : j ∉ chain := fun hmem =>
      hj.not_transGen hloop (TransGen.tail' (hchain j hmem).2 hwakes)
    refine ⟨j :: chain, by rw [List.length_cons, hlength],
      List.nodup_cons.2 ⟨hfresh, hnodup⟩, fun x hx => ?_⟩
    rcases List.mem_cons.1 hx with rfl | hx
    · exact ⟨hj.mem, .refl⟩
    · exact ⟨(hchain x hx).1, (hchain x hx).2.tail hwakes⟩

/-- There are no more rounds than actions. -/
theorem InRound.lt (hloop : ¬ v.LoopsOnLoad) {k : Nat} {id : String}
    (h : v.InRound k id) :
    k < v.actions.length := by
  obtain ⟨chain, hlength, hnodup, hchain⟩ := h.exists_chain hloop
  have hsub : chain ⊆ v.actionIds := fun i hi => (hchain i hi).1
  have hle := (hnodup.subperm hsub).length_le
  rw [hlength, length_actionIds] at hle
  exact hle

/-- The queue parts into what is left of a round and what waits for the next. -/
structure Rounds (v : View) (k : Nat) (now next : List String) : Prop where
  inRound : ∀ id ∈ now, v.InRound k id
  inNext : ∀ id ∈ next, v.InRound (k + 1) id
  nodup : (now ++ next).Nodup

/-- What a step wakes waits for the next round. -/
theorem Rounds.step {k : Nat} {id : String} {now next : List String}
    (h : v.Rounds k (id :: now) next) :
    ∃ fresh,
      (v.wakes id).foldl Run.enqueue (now ++ next) = now ++ (next ++ fresh)
        ∧ v.Rounds k now (next ++ fresh) := by
  obtain ⟨fresh, hfresh, heq⟩ :=
    Run.exists_foldl_enqueue (now ++ next) (v.wakes id)
  rw [List.append_assoc] at heq
  refine ⟨fresh, heq, fun i hi => h.inRound i (List.mem_cons_of_mem _ hi),
    fun j hj => ?_, ?_⟩
  · rcases List.mem_append.1 hj with hj | hj
    · exact h.inNext j hj
    · exact (h.inRound id List.mem_cons_self).next (mem_wakes.1 (hfresh hj))
  · rw [← heq]
    exact Run.nodup_foldl_enqueue (List.nodup_cons.1 h.nodup).2 _

/-- At the end of a round the next begins. -/
theorem Rounds.turn {k : Nat} {next : List String} (h : v.Rounds k [] next) :
    v.Rounds (k + 1) next [] :=
  ⟨h.inNext, fun _ hmem => (List.not_mem_nil hmem).elim, by simpa using h.nodup⟩

/-- No round is longer than there are actions. -/
theorem Rounds.length_le {k : Nat} {now next : List String}
    (h : v.Rounds k now next) :
    now.length ≤ v.actions.length := by
  have hsub : now ⊆ v.actionIds :=
    fun id hid => (h.inRound id hid).runsOnLoad.mem
  have hnodup : now.Nodup := (List.nodup_append.1 h.nodup).1
  rw [← length_actionIds]
  exact (hnodup.subperm hsub).length_le

/-- The next round is paid for by what is left for the rounds after this one. -/
theorem Rounds.turn_cost (hloop : ¬ v.LoopsOnLoad) {k : Nat}
    {next : List String} (h : v.Rounds k [] next) (hne : next ≠ []) :
    next.length + (v.actions.length - (k + 1 + 1)) * v.actions.length
      ≤ (v.actions.length - (k + 1)) * v.actions.length := by
  obtain ⟨id, hid⟩ := List.exists_mem_of_ne_nil next hne
  -- a round that has an id is one of the rounds that there can be
  have hlt : k + 1 < v.actions.length := (h.inNext id hid).lt hloop
  have hlater :
      v.actions.length - (k + 1) = (v.actions.length - (k + 1 + 1)) + 1 := by
    omega
  rw [hlater, Nat.succ_mul, Nat.add_comm]
  exact Nat.add_le_add_left h.turn.length_le _

/-- Steps for the rest of a round and for all rounds after it are enough. -/
theorem runFor_completed (hloop : ¬ v.LoopsOnLoad) {left k : Nat}
    {now next history : List String} (h : v.Rounds k now next)
    (hleft :
      now.length + (v.actions.length - (k + 1)) * v.actions.length ≤ left) :
    (v.runFor left ⟨now ++ next, history⟩).1 = .completed := by
  induction left generalizing k now next history with
  | zero =>
    -- what is left pays for the rest of the round and for all that follow, and
    -- so neither is there
    have hnow : now = [] := List.length_eq_zero_iff.1 (by omega)
    subst hnow
    have hnext : next = [] := by
      by_contra hne
      have hpos := List.length_pos_iff.2 hne
      have hcost := h.turn_cost hloop hne
      omega
    simp [runFor, hnext]
  | succ left ih =>
    cases now with
    | cons id now =>
      -- within a round: a step takes one id of it
      obtain ⟨fresh, heq, hstep⟩ := h.step
      show (v.runFor left ⟨(v.wakes id).foldl Run.enqueue (now ++ next),
        id :: history⟩).1 = _
      rw [heq]
      refine ih hstep ?_
      rw [List.length_cons] at hleft
      omega
    | nil =>
      cases next with
      | nil => rfl
      | cons id next =>
        -- at the end of a round: the step takes the first id of the next one
        have hturn := h.turn
        have hcost := h.turn_cost hloop (List.cons_ne_nil id next)
        obtain ⟨fresh, heq, hstep⟩ := hturn.step
        show (v.runFor left ⟨(v.wakes id).foldl Run.enqueue next,
          id :: history⟩).1 = _
        rw [List.append_nil] at heq
        rw [heq]
        refine ih hstep ?_
        rw [List.length_cons] at hcost
        omega

/-! ## What ran -/

/-- What ran or waits runs on load, it has all that the load starts, and what an
action that ran wakes is there as well. -/
structure Explored (v : View) (r : Run) : Prop where
  sound : ∀ id, id ∈ r.history ∨ id ∈ r.queue → v.RunsOnLoad id
  starts : ∀ id, v.StartsOnLoad id → id ∈ r.history ∨ id ∈ r.queue
  closed : ∀ i ∈ r.history, ∀ j, v.Wakes i j → j ∈ r.history ∨ j ∈ r.queue

theorem Explored.step {id : String} {rest history : List String}
    (h : v.Explored ⟨id :: rest, history⟩) :
    v.Explored (v.runStep id rest ⟨id :: rest, history⟩) := by
  -- what ran or waited still does
  have hkeep : ∀ x, x ∈ history ∨ x ∈ id :: rest →
      x ∈ id :: history ∨ x ∈ (v.wakes id).foldl Run.enqueue rest := by
    intro x hx
    rw [Run.mem_foldl_enqueue]
    rcases hx with hx | hx
    · exact .inl (List.mem_cons_of_mem _ hx)
    · rcases List.mem_cons.1 hx with rfl | hx
      · exact .inl List.mem_cons_self
      · exact .inr (.inl hx)
  have hid : v.RunsOnLoad id := h.sound id (.inr List.mem_cons_self)
  refine ⟨fun x hx => ?_, fun x hx => hkeep x (h.starts x hx),
    fun i hi j hwakes => ?_⟩
  · rcases hx with hx | hx
    · rcases List.mem_cons.1 hx with rfl | hx
      · exact hid
      · exact h.sound x (.inl hx)
    · rcases Run.mem_foldl_enqueue.1 hx with hx | hx
      · exact h.sound x (.inr (List.mem_cons_of_mem _ hx))
      · obtain ⟨start, hstart, hchain⟩ := hid
        exact ⟨start, hstart, hchain.tail (mem_wakes.1 hx)⟩
  · rcases List.mem_cons.1 hi with rfl | hi
    · exact .inr (Run.mem_foldl_enqueue.2 (.inr (mem_wakes.2 hwakes)))
    · exact hkeep j (h.closed i hi j hwakes)

theorem runFor_explored {left : Nat} {r : Run} (h : v.Explored r) :
    v.Explored (v.runFor left r).2 := by
  induction left generalizing r with
  | zero => exact h
  | succ left ih =>
    obtain ⟨queue, history⟩ := r
    cases queue with
    | nil => exact h
    | cons id rest => exact ih h.step

/-- When nothing waits, exactly what runs on load ran. -/
theorem Explored.mem_history_iff {r : Run} (h : v.Explored r)
    (hq : r.queue = []) {id : String} :
    id ∈ r.history ↔ v.RunsOnLoad id := by
  have hran : ∀ x, x ∈ r.history ∨ x ∈ r.queue → x ∈ r.history := by simp [hq]
  refine ⟨fun hid => h.sound id (.inl hid), ?_⟩
  rintro ⟨start, hstart, hchain⟩
  induction hchain with
  | refl => exact hran start (h.starts start hstart)
  | tail _ hwakes ih => exact hran _ (h.closed _ ih _ hwakes)

theorem explored_start (v : View) : v.Explored ⟨v.pageLoadStarts, []⟩ where
  sound id hid := ⟨id, mem_pageLoadStarts.1 (by simpa using hid), .refl⟩
  starts id hid := .inr (mem_pageLoadStarts.2 hid)
  closed i hi := (List.not_mem_nil hi).elim

/-! ## The report -/

/-- The load starts an action once. -/
theorem nodup_pageLoadStarts (v : View) : v.pageLoadStarts.Nodup :=
  (v.nodup_actionIds).sublist (List.filter_sublist.map _)

theorem rounds_start (v : View) : v.Rounds 0 v.pageLoadStarts [] where
  inRound _ hid := .start (mem_pageLoadStarts.1 hid)
  inNext _ hid := (List.not_mem_nil hid).elim
  nodup := by simpa using v.nodup_pageLoadStarts

/-- A run as long as the square of the number of actions comes to its end. -/
theorem simulate_completed (hloop : ¬ v.LoopsOnLoad) {budget : Nat}
    (hbudget : v.actions.length * v.actions.length ≤ budget) :
    (v.runFor budget ⟨v.pageLoadStarts, []⟩).1 = .completed := by
  have hstart := v.rounds_start
  have hle := hstart.length_le
  rw [← List.append_nil v.pageLoadStarts]
  refine runFor_completed hloop hstart ?_
  cases hn : v.actions.length with
  | zero => omega
  | succ n =>
    rw [hn, Nat.succ_mul] at hbudget
    rw [hn] at hle
    rw [Nat.zero_add, Nat.add_sub_cancel]
    omega

/-- The dry run visits only what runs on load, whatever its budget. -/
theorem runsOnLoad_of_mem_visited {budget : Nat} {id : String}
    (h : id ∈ (v.simulate budget).visited) : v.RunsOnLoad id := by
  have hran : id ∈ (v.runFor budget ⟨v.pageLoadStarts, []⟩).2.history := by
    simpa [simulate] using h
  exact (runFor_explored v.explored_start).sound id (.inl hran)

/-- The dry run finds exactly the loops. When one can be reached from the load
of a page, no budget is enough. When none can, the square of the number of
actions is enough, and the report has exactly the actions that run on load and
the keys that they write. -/
theorem simulate_exact (v : View) :
    (v.LoopsOnLoad → ∀ budget,
      (v.simulate budget).outcome = .stepBudgetExceeded)
    ∧ (¬ v.LoopsOnLoad → ∀ budget,
      v.actions.length * v.actions.length ≤ budget →
      (v.simulate budget).outcome = .completed
      ∧ (v.simulate budget).visited.Nodup
      ∧ (∀ id, id ∈ (v.simulate budget).visited ↔ v.RunsOnLoad id)
      ∧ (v.simulate budget).keysSet.members.Pairwise (· < ·)
      ∧ ∀ key, key ∈ (v.simulate budget).keysSet
        ↔ ∃ id a, v.RunsOnLoad id ∧ v.action? id = some a
          ∧ key ∈ a.mutatedKeys) := by
  refine ⟨fun ⟨start, hstart, hendless⟩ budget => ?_,
    fun hloop budget hbudget => ?_⟩
  · exact runFor_exceeded ⟨start, mem_pageLoadStarts.2 hstart, hendless⟩
  · have hcompleted := simulate_completed hloop hbudget
    -- with nothing left in the queue, what is explored is what ran
    have hexplored : v.Explored (v.runFor budget ⟨v.pageLoadStarts, []⟩).2 :=
      runFor_explored v.explored_start
    have hvisited : ∀ id, id ∈ (v.simulate budget).visited
        ↔ v.RunsOnLoad id := by
      intro id
      rw [← hexplored.mem_history_iff (queue_eq_nil_of_completed hcompleted)]
      simp [simulate]
    refine ⟨hcompleted, ?_, hvisited, KeySet.ascending _, fun key => ?_⟩
    · simpa [simulate] using nodup_map_distinctBy id
        (v.runFor budget ⟨v.pageLoadStarts, []⟩).2.history.reverse
    · have hkey : key ∈ (v.simulate budget).keysSet
          ↔ ∃ id ∈ (v.simulate budget).visited, key ∈ v.writes id := by
        simp [simulate]
      rw [hkey]
      simp only [hvisited, mem_writes]
      constructor
      · rintro ⟨id, hid, a, ha, hwrites⟩
        exact ⟨id, a, hid, ha, hwrites⟩
      · rintro ⟨id, a, hid, ha, hwrites⟩
        exact ⟨id, hid, a, ha, hwrites⟩

/-- A call on load, and an action that waits for what it assigns. -/
def relay : View where
  mutation := { Mutation.empty with
    actionsAdded := [
      { Action.bare "fetch" .integrationCall with
        config := [(ConfigKey.assignTo, .string "rawRows")]
        triggeredBy := [.lifecycle Lifecycle.pageLoad] },
      { Action.bare "shape" .internal with
        config := [(ConfigKey.stateKey, .string "rows")]
        triggeredBy := [.stateChange "rawRows"] }] }
  prior := none

/-- The second action of `relay` waits for a key of its own as well. -/
def echo : View where
  mutation := { Mutation.empty with
    actionsAdded := relay.mutation.actionsAdded.map fun a =>
      if a.id = "shape" then { a with
        triggeredBy := a.triggeredBy ++ [.stateChange "rows"] }
      else a }
  prior := none

/-- The relay runs out after its two actions, and the echo never does. -/
theorem simulate_exact_relay :
    (¬ relay.LoopsOnLoad ∧ relay.actions.length * relay.actions.length ≤ 4
      ∧ (relay.simulate 4).outcome = .completed ∧ relay.RunsOnLoad "shape"
      ∧ (relay.simulate 4).keysSet
        = ["rawRows", "rawRowsError", "rawRowsStatus", "rows"])
    ∧ echo.LoopsOnLoad
    ∧ ∀ budget, (echo.simulate budget).outcome = .stepBudgetExceeded := by
  have hwakes : ∀ {i j : String}, relay.Wakes i j →
      i = "fetch" ∧ j = "shape" := by
    intro i j h
    have hi : i ∈ ["fetch", "shape"] := h.left_mem
    have hj := mem_wakes.2 h
    simp only [List.mem_cons, List.not_mem_nil, or_false] at hi
    rcases hi with rfl | rfl
    · have hfetch : relay.wakes "fetch" = ["shape"] := by decide +kernel
      rw [hfetch, List.mem_singleton] at hj
      exact ⟨rfl, hj⟩
    · have hshape : relay.wakes "shape" = [] := by decide +kernel
      rw [hshape] at hj
      exact (List.not_mem_nil hj).elim
  -- a cycle has a way out of its node and one into it, and no node has both
  have hrelay : ¬ relay.LoopsOnLoad := by
    rintro ⟨_, _, c, _, hcycle⟩
    obtain ⟨_, hout, _⟩ := TransGen.head'_iff.1 hcycle
    obtain ⟨_, _, hin⟩ := TransGen.tail'_iff.1 hcycle
    exact absurd ((hwakes hout).1.symm.trans (hwakes hin).2) (by decide)
  -- the second action wakes itself
  have hecho : echo.LoopsOnLoad := by
    have hstart : echo.StartsOnLoad "fetch" :=
      mem_pageLoadStarts.1 (by decide +kernel)
    have hshape : echo.Wakes "fetch" "shape" := mem_wakes.1 (by decide +kernel)
    have hself : echo.Wakes "shape" "shape" := mem_wakes.1 (by decide +kernel)
    exact ⟨"fetch", hstart, "shape", .single hshape, .single hself⟩
  have hbudget : relay.actions.length * relay.actions.length ≤ 4 := by
    decide +kernel
  obtain ⟨hcompleted, _, hvisited, _⟩ :=
    (simulate_exact relay).2 hrelay 4 hbudget
  exact ⟨⟨hrelay, hbudget, hcompleted, (hvisited "shape").1 (by decide +kernel),
    by decide +kernel⟩, hecho, (simulate_exact echo).1 hecho⟩

end View

end IntentGraph
