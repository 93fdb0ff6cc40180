import IntentGraph.Execution.TopologicalOrder
import Mathlib.Data.List.Perm.Basic
import Mathlib.Logic.Relation
import Mathlib.Order.Basic

/-!
# The search finishes every node once

* `Digraph.SearchStep` is what the search does with the node on top of its
  stack. A search that goes through is a chain of steps
  (`Digraph.steps_of_explore`, `Digraph.steps_of_exploreAll`), so that what a
  step keeps is kept by the search.
* `Digraph.Search.Sound` is kept by a step: no node is finished twice, none is
  out of range, and a node that was discovered is finished or still on the
  stack.
* `Digraph.perm_topologicalOrder`: an order that the search finds is one of all
  nodes.
-/

namespace IntentGraph.Digraph

open Relation

variable {g : Digraph}

/-- An edge leads from one node to another. -/
def Edge (g : Digraph) (n m : Nat) : Prop := (n, m) ∈ g.edges

theorem mem_successors {n m : Nat} : m ∈ g.successors n ↔ g.Edge n m := by
  simp [successors, Edge]

theorem mem_predecessors {n m : Nat} : m ∈ g.predecessors n ↔ g.Edge m n := by
  simp [predecessors, Edge]

/-- Every edge leads from a node to a node. -/
def InRange (g : Digraph) : Prop := ∀ e ∈ g.edges, e.1 < g.size ∧ e.2 < g.size

/-! ## Steps -/

/-- One step of a search, from a stack and what was met and finished before. -/
inductive SearchStep (g : Digraph) :
    List Nat × Search → List Nat × Search → Prop
  /-- With nothing on the stack the search starts at a node. -/
  | start {n : Nat} {s : Search} : n < g.size → SearchStep g ([], s) ([n], s)
  /-- A node that is met for the first time goes back on the stack, below what
  it leads to. -/
  | push {n : Nat} {rest fresh : List Nat} {s : Search} :
    n < g.size ∧ n ∉ s.discovered → ¬ g.Edge n n →
    (∀ m, m ∈ fresh ↔ g.Edge n m ∧ m ∉ n :: s.discovered) →
    SearchStep g (n :: rest, s)
      (fresh ++ n :: rest, ⟨n :: s.discovered, s.finished⟩)
  /-- A node that is finished already comes off the stack. -/
  | pop {n : Nat} {rest : List Nat} {s : Search} :
    ¬ (n < g.size ∧ n ∉ s.discovered) → n ∈ s.finished →
    SearchStep g (n :: rest, s) (rest, s)
  /-- A node that is met again is finished. -/
  | finish {n : Nat} {rest : List Nat} {s : Search} :
    ¬ (n < g.size ∧ n ∉ s.discovered) → n ∉ s.finished →
    SearchStep g (n :: rest, s) (rest, ⟨s.discovered, n :: s.finished⟩)

/-- What was discovered or is on the stack is so after a step. -/
theorem SearchStep.met {p q : List Nat × Search} (h : g.SearchStep p q)
    {n : Nat} (hn : n < g.size) (hmet : n ∈ p.2.discovered ∨ n ∈ p.1) :
    n ∈ q.2.discovered ∨ n ∈ q.1 := by
  cases h with
  | start _ => exact hmet.imp_right nofun
  | push _ _ _ =>
    exact hmet.imp (List.mem_cons_of_mem _) (List.mem_append_right _)
  | pop hold _ | finish hold _ =>
    rcases hmet with hdiscovered | hmem
    · exact .inl hdiscovered
    · rcases List.mem_cons.1 hmem with rfl | hrest
      · exact .inl (Decidable.byContradiction fun hnew => hold ⟨hn, hnew⟩)
      · exact .inr hrest

theorem met_of_steps {p q : List Nat × Search}
    (h : ReflTransGen g.SearchStep p q) {n : Nat} (hn : n < g.size)
    (hmet : n ∈ p.2.discovered ∨ n ∈ p.1) :
    n ∈ q.2.discovered ∨ n ∈ q.1 := by
  induction h with
  | refl => exact hmet
  | tail _ hstep ih => exact hstep.met hn ih

/-- A search that goes through takes steps until nothing is on the stack. -/
theorem steps_of_explore {stack : List Nat} {s s' : Search}
    (h : g.explore stack s = .ok s') :
    ReflTransGen g.SearchStep (stack, s) ([], s') := by
  induction stack, s using explore.induct g with
  | case1 s =>
    rw [explore] at h
    cases h
    exact .refl
  | case2 s n rest hnew hloop =>
    rw [explore, dif_pos hnew, if_pos hloop] at h
    cases h
  | case3 s n rest hnew hloop discovered fresh ih =>
    rw [explore, dif_pos hnew, if_neg hloop] at h
    have hfresh : ∀ m, m ∈ fresh ↔ g.Edge n m ∧ m ∉ n :: s.discovered :=
      fun m => by simp [fresh, discovered, mem_successors]
    exact .head (.push hnew (mt mem_successors.2 hloop) hfresh) (ih h)
  | case4 s n rest hold hdone ih =>
    rw [explore, dif_neg hold, if_pos hdone] at h
    exact .head (.pop hold hdone) (ih h)
  | case5 s n rest hold hopen ih =>
    rw [explore, dif_neg hold, if_neg hopen] at h
    exact .head (.finish hold hopen) (ih h)

/-- A search from some nodes in turn takes steps too, and has met all of them in
the end. -/
theorem steps_of_exploreAll {nodes : List Nat} {s s' : Search}
    (hnodes : ∀ n ∈ nodes, n < g.size) (h : g.exploreAll nodes s = .ok s') :
    ReflTransGen g.SearchStep ([], s) ([], s')
      ∧ ∀ n ∈ nodes, n ∈ s'.discovered := by
  induction nodes generalizing s with
  | nil =>
    cases h
    exact ⟨.refl, List.forall_mem_nil _⟩
  | cons n rest ih =>
    obtain ⟨hn, hrest⟩ := List.forall_mem_cons.1 hnodes
    rw [exploreAll] at h
    -- either way the search goes on where the node was met
    obtain ⟨t, hsteps, hmet, ht⟩ : ∃ t,
        ReflTransGen g.SearchStep ([], s) ([], t) ∧ n ∈ t.discovered
        ∧ g.exploreAll rest t = .ok s' := by
      by_cases hdiscovered : n ∈ s.discovered
      · rw [if_pos hdiscovered] at h
        exact ⟨s, .refl, hdiscovered, h⟩
      · rw [if_neg hdiscovered] at h
        cases hexplore : g.explore [n] s with
        | error m =>
          rw [hexplore] at h
          cases h
        | ok t =>
          rw [hexplore] at h
          have hsteps := steps_of_explore hexplore
          have hmet := met_of_steps hsteps hn (.inr List.mem_cons_self)
          exact ⟨t, .head (.start hn) hsteps, hmet.resolve_right nofun, h⟩
    obtain ⟨hsteps', hall⟩ := ih hrest ht
    have hmet' := met_of_steps hsteps' hn (.inl hmet)
    exact ⟨hsteps.trans hsteps',
      List.forall_mem_cons.2 ⟨hmet'.resolve_right nofun, hall⟩⟩

/-! ## What a search keeps -/

/-- What the search keeps, with a stack still to go. -/
structure Search.Sound (g : Digraph) (stack : List Nat)
    (s : Search) : Prop where
  nodup : s.finished.Nodup
  finishedRange : ∀ n ∈ s.finished, n < g.size
  stackRange : ∀ n ∈ stack, n < g.size
  covered : ∀ n ∈ s.discovered, n ∈ s.finished ∨ n ∈ stack

namespace Search.Sound

variable {n : Nat} {rest : List Nat} {s : Search}

theorem initial (g : Digraph) : Search.Sound g [] ⟨[], []⟩ :=
  ⟨by simp, by simp, by simp, by simp⟩

/-- A node that is met for the first time goes back on the stack, below what it
leads to. -/
theorem push (h : s.Sound g (n :: rest)) {fresh : List Nat}
    (hfresh : ∀ m ∈ fresh, m < g.size) :
    Search.Sound g (fresh ++ n :: rest) ⟨n :: s.discovered, s.finished⟩ where
  nodup := h.nodup
  finishedRange := h.finishedRange
  stackRange m hm := (List.mem_append.1 hm).elim (hfresh m) (h.stackRange m)
  covered m hm := by
    rcases List.mem_cons.1 hm with rfl | hm
    · exact .inr (List.mem_append_right _ List.mem_cons_self)
    · exact (h.covered m hm).imp_right (List.mem_append_right _)

/-- A node that is finished already comes off the stack. -/
theorem pop (h : s.Sound g (n :: rest)) (hn : n ∈ s.finished) :
    s.Sound g rest where
  nodup := h.nodup
  finishedRange := h.finishedRange
  stackRange m hm := h.stackRange m (List.mem_cons_of_mem _ hm)
  covered m hm := by
    rcases h.covered m hm with hm | hm
    · exact .inl hm
    · rcases List.mem_cons.1 hm with rfl | hm
      · exact .inl hn
      · exact .inr hm

/-- A node comes off the stack when it is finished. -/
theorem finish (h : s.Sound g (n :: rest)) (hn : n ∉ s.finished) :
    Search.Sound g rest ⟨s.discovered, n :: s.finished⟩ where
  nodup := List.nodup_cons.2 ⟨hn, h.nodup⟩
  finishedRange m hm := by
    rcases List.mem_cons.1 hm with rfl | hm
    · exact h.stackRange m List.mem_cons_self
    · exact h.finishedRange m hm
  stackRange m hm := h.stackRange m (List.mem_cons_of_mem _ hm)
  covered m hm := by
    rcases h.covered m hm with hm | hm
    · exact .inl (List.mem_cons_of_mem _ hm)
    · rcases List.mem_cons.1 hm with rfl | hm
      · exact .inl List.mem_cons_self
      · exact .inr hm

/-- With nothing on the stack a search may start at any node. -/
theorem start (h : s.Sound g []) (hn : n < g.size) : s.Sound g [n] where
  nodup := h.nodup
  finishedRange := h.finishedRange
  stackRange m hm := by
    rw [List.mem_singleton.1 hm]
    exact hn
  covered m hm := .inl (by simpa using h.covered m hm)

theorem step (hg : g.InRange) {p q : List Nat × Search}
    (hstep : g.SearchStep p q) (h : p.2.Sound g p.1) : q.2.Sound g q.1 := by
  cases hstep with
  | start hn => exact h.start hn
  | push _ _ hfresh => exact h.push fun m hm => (hg _ ((hfresh m).1 hm).1).2
  | pop _ hdone => exact h.pop hdone
  | finish _ hopen => exact h.finish hopen

theorem steps (hg : g.InRange) {p q : List Nat × Search}
    (hsteps : ReflTransGen g.SearchStep p q) (h : p.2.Sound g p.1) :
    q.2.Sound g q.1 := by
  induction hsteps with
  | refl => exact h
  | tail _ hstep ih => exact ih.step hg hstep

/-- With nothing on the stack, what was discovered is finished. -/
theorem finished_of_discovered (h : s.Sound g []) (hn : n ∈ s.discovered) :
    n ∈ s.finished :=
  (h.covered n hn).resolve_right nofun

end Search.Sound

/-- A search of the whole graph that goes through finishes every node once. -/
theorem sound_of_exploreAll (hg : g.InRange) {s : Search}
    (h : g.exploreAll (List.range g.size) ⟨[], []⟩ = .ok s) :
    s.Sound g [] ∧ ∀ n < g.size, n ∈ s.finished := by
  obtain ⟨hsteps, hall⟩ :=
    steps_of_exploreAll (fun n hn => List.mem_range.1 hn) h
  have hsound : s.Sound g [] := (Search.Sound.initial g).steps hg hsteps
  exact ⟨hsound, fun n hn =>
    hsound.finished_of_discovered (hall n (List.mem_range.2 hn))⟩

/-- An order that the search finds is one of all nodes. -/
theorem perm_topologicalOrder (hg : g.InRange) {order : List Nat}
    (h : g.topologicalOrder = .ok order) : order.Perm (List.range g.size) := by
  rw [topologicalOrder] at h
  cases hsearch : g.exploreAll (List.range g.size) ⟨[], []⟩ with
  | error n =>
    rw [hsearch] at h
    cases h
  | ok s =>
    rw [hsearch] at h
    obtain ⟨hsound, hall⟩ := sound_of_exploreAll hg hsearch
    have hfinished : s.finished.Perm (List.range g.size) := by
      refine (List.perm_ext_iff_of_nodup hsound.nodup List.nodup_range).2
        fun n => ?_
      exact ⟨fun hn => List.mem_range.2 (hsound.finishedRange n hn),
        fun hn => hall n (List.mem_range.1 hn)⟩
    cases hback : g.backSource? [] s.finished with
    | some n => simp [bind, Except.bind, hback] at h
    | none =>
      simp only [bind, Except.bind, hback, Except.ok.injEq] at h
      exact h ▸ hfinished

end IntentGraph.Digraph
