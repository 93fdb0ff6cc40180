import IntentGraph.Proofs.Execution.TopologicalOrder

/-!
# The search finds an order or a cycle

Nodes that were met and are not finished yet are open. They stand on the stack
above one another, and from the topmost place of an open node everything above
it can be reached. So when a node is finished, an edge from it leads to a node
that was finished before, or to an open one, from which there is a way back.

* `Digraph.Search.Tracked` is this invariant, and a step keeps it
  (`Digraph.Search.Tracked.step`).
* `Digraph.Settled` is what is left of it in the order of finishing.
* `Digraph.idxOf_lt_of_topologicalOrder`: in an order that is found every edge
  leads forward.
* `Digraph.transGen_of_topologicalOrder`: a node that is found instead lies on a
  cycle.
* `Digraph.exists_topologicalOrder_iff`: an order is found iff there is no
  cycle.
-/

namespace IntentGraph.Digraph

open Relation

variable {g : Digraph}

/-! ## Order of finishing -/

/-- In an order of finishing, the last one first, an edge leads to a node that
was finished before, or to one from which there is a way back. -/
def Settled (g : Digraph) : List Nat → Prop
  | [] => True
  | n :: earlier =>
    (∀ m, g.Edge n m → m ∈ earlier ∨ TransGen g.Edge m n) ∧ g.Settled earlier

theorem Settled.of_mem {order : List Nat} (h : g.Settled order) {n m : Nat}
    (hn : n ∈ order) (he : g.Edge n m) : m ∈ order ∨ TransGen g.Edge m n := by
  induction order with
  | nil => cases hn
  | cons k earlier ih =>
    rcases List.mem_cons.1 hn with rfl | hn
    · exact (h.1 m he).imp_left (List.mem_cons_of_mem _)
    · exact (ih h.2 hn).imp_left (List.mem_cons_of_mem _)

/-! ## What a search keeps -/

/-- A node is open when it was met and is not finished. -/
def Search.Open (s : Search) (n : Nat) : Prop :=
  n ∈ s.discovered ∧ n ∉ s.finished

/-- The nodes above the topmost place of a node on a stack. -/
def above (n : Nat) (stack : List Nat) : List Nat := stack.takeWhile (· ≠ n)

theorem above_cons_self (n : Nat) (rest : List Nat) :
    above n (n :: rest) = [] := by simp [above]

theorem above_cons_of_ne {n k : Nat} (h : n ≠ k) (rest : List Nat) :
    above k (n :: rest) = n :: above k rest := by simp [above, h]

theorem above_append {fresh : List Nat} {k : Nat} (h : k ∉ fresh)
    (stack : List Nat) :
    above k (fresh ++ stack) = fresh ++ above k stack := by
  rw [above, List.takeWhile_append_of_pos fun m hm => ?_, above]
  simpa using fun hmk : m = k => h (hmk ▸ hm)

/-- What the search keeps of the ways between nodes, with a stack still to
go. -/
structure Search.Tracked (g : Digraph) (stack : List Nat)
    (s : Search) : Prop where
  discovered : ∀ n ∈ s.finished, n ∈ s.discovered
  loopless : ∀ n ∈ s.discovered, ¬ g.Edge n n
  reaches : ∀ n, s.Open n → ∀ m ∈ above n stack, TransGen g.Edge n m
  pending : ∀ n, s.Open n → ∀ m, g.Edge n m →
    m ∈ s.discovered ∨ m ∈ above n stack
  settled : g.Settled s.finished

namespace Search.Tracked

variable {n : Nat} {rest : List Nat} {s : Search}

/-- A node that is met for the first time is open below what it leads to. -/
theorem push (h : s.Tracked g (n :: rest)) (hloop : ¬ g.Edge n n)
    {fresh : List Nat}
    (hfresh : ∀ m, m ∈ fresh ↔ g.Edge n m ∧ m ∉ n :: s.discovered) :
    Search.Tracked g (fresh ++ n :: rest) ⟨n :: s.discovered, s.finished⟩ where
  discovered m hm := List.mem_cons_of_mem _ (h.discovered m hm)
  loopless m hm := by
    rcases List.mem_cons.1 hm with rfl | hm
    · exact hloop
    · exact h.loopless m hm
  reaches k hk m hm := by
    have hnot : k ∉ fresh := fun hmem => ((hfresh k).1 hmem).2 hk.1
    rw [above_append hnot] at hm
    by_cases hkn : n = k
    · -- above the node itself there are just the nodes that it leads to
      subst hkn
      rw [above_cons_self, List.append_nil] at hm
      exact .single ((hfresh m).1 hm).1
    · have hopen : s.Open k :=
        ⟨(List.mem_cons.1 hk.1).resolve_left (Ne.symm hkn), hk.2⟩
      have hreach := h.reaches k hopen
      rw [above_cons_of_ne hkn] at hm hreach
      -- an open node leads to the node that is met, and so to what is new above
      -- it
      rcases List.mem_append.1 hm with hm | hm
      · exact (hreach n List.mem_cons_self).tail ((hfresh m).1 hm).1
      · exact hreach m hm
  pending k hk m he := by
    have hnot : k ∉ fresh := fun hmem => ((hfresh k).1 hmem).2 hk.1
    rw [above_append hnot]
    by_cases hkn : n = k
    · subst hkn
      by_cases hm : m ∈ n :: s.discovered
      · exact .inl hm
      · exact .inr (List.mem_append_left _ ((hfresh m).2 ⟨he, hm⟩))
    · have hopen : s.Open k :=
        ⟨(List.mem_cons.1 hk.1).resolve_left (Ne.symm hkn), hk.2⟩
      exact (h.pending k hopen m he).imp (List.mem_cons_of_mem _)
        (List.mem_append_right _)
  settled := h.settled

/-- A node that is finished already comes off the stack. -/
theorem pop (h : s.Tracked g (n :: rest)) (hn : n ∈ s.finished) :
    s.Tracked g rest where
  discovered := h.discovered
  loopless := h.loopless
  reaches k hk m hm := by
    have hkn : n ≠ k := fun hnk => hk.2 (hnk ▸ hn)
    exact h.reaches k hk m
      (above_cons_of_ne hkn rest ▸ List.mem_cons_of_mem _ hm)
  pending k hk m he := by
    have hkn : n ≠ k := fun hnk => hk.2 (hnk ▸ hn)
    rcases h.pending k hk m he with hm | hm
    · exact .inl hm
    · rw [above_cons_of_ne hkn] at hm
      rcases List.mem_cons.1 hm with rfl | hm
      · exact .inl (h.discovered m hn)
      · exact .inr hm
  settled := h.settled

/-- A node that comes off the stack is finished: what it leads to was finished
before, or is open and leads back to it. -/
theorem finish (h : s.Tracked g (n :: rest)) (hn : n ∈ s.discovered)
    (hopen : n ∉ s.finished) :
    Search.Tracked g rest ⟨s.discovered, n :: s.finished⟩ where
  discovered m hm := by
    rcases List.mem_cons.1 hm with rfl | hm
    · exact hn
    · exact h.discovered m hm
  loopless := h.loopless
  reaches k hk m hm := by
    have hkn : n ≠ k := fun hnk => hk.2 (hnk ▸ List.mem_cons_self)
    have hk' : s.Open k :=
      ⟨hk.1, fun hfin => hk.2 (List.mem_cons_of_mem _ hfin)⟩
    exact h.reaches k hk' m
      (above_cons_of_ne hkn rest ▸ List.mem_cons_of_mem _ hm)
  pending k hk m he := by
    have hkn : n ≠ k := fun hnk => hk.2 (hnk ▸ List.mem_cons_self)
    have hk' : s.Open k :=
      ⟨hk.1, fun hfin => hk.2 (List.mem_cons_of_mem _ hfin)⟩
    rcases h.pending k hk' m he with hm | hm
    · exact .inl hm
    · rw [above_cons_of_ne hkn] at hm
      rcases List.mem_cons.1 hm with rfl | hm
      · exact .inl hn
      · exact .inr hm
  settled := by
    refine ⟨fun m he => ?_, h.settled⟩
    -- nothing is above the node any more, so all that it leads to is discovered
    have hm : m ∈ s.discovered := by
      have := h.pending n ⟨hn, hopen⟩ m he
      rwa [above_cons_self, List.mem_nil_iff, or_false] at this
    by_cases hfin : m ∈ s.finished
    · exact .inl hfin
    · -- an open node is further down the stack, and leads to what is above it
      have hmn : n ≠ m := fun hnm => h.loopless n hn (hnm ▸ he)
      refine .inr (h.reaches m ⟨hm, hfin⟩ n ?_)
      rw [above_cons_of_ne hmn]
      exact List.mem_cons_self

/-- With nothing on the stack nothing is open, and a search may start
anywhere. -/
theorem start (h : s.Tracked g []) (hsound : s.Sound g []) (n : Nat) :
    s.Tracked g [n] := by
  have hclosed : ∀ k, ¬ s.Open k := fun k hk => by
    rcases hsound.covered k hk.1 with hfin | hfin
    · exact hk.2 hfin
    · cases hfin
  exact { h with
    reaches := fun k hk => absurd hk (hclosed k)
    pending := fun k hk => absurd hk (hclosed k) }

theorem step {p q : List Nat × Search} (hstep : g.SearchStep p q)
    (hsound : p.2.Sound g p.1) (h : p.2.Tracked g p.1) :
    q.2.Tracked g q.1 := by
  cases hstep with
  | start _ => exact h.start hsound _
  | push _ hloop hfresh => exact h.push hloop hfresh
  | pop _ hdone => exact h.pop hdone
  | finish hold hopen =>
    refine h.finish (Decidable.byContradiction fun hnew => ?_) hopen
    exact hold ⟨hsound.stackRange _ List.mem_cons_self, hnew⟩

theorem steps (hg : g.InRange) {p q : List Nat × Search}
    (hsteps : ReflTransGen g.SearchStep p q) (hsound : p.2.Sound g p.1)
    (h : p.2.Tracked g p.1) : q.2.Tracked g q.1 := by
  induction hsteps with
  | refl => exact h
  | tail hbefore hstep ih => exact ih.step hstep (hsound.steps hg hbefore)

end Search.Tracked

theorem tracked_of_exploreAll (hg : g.InRange) {s : Search}
    (h : g.exploreAll (List.range g.size) ⟨[], []⟩ = .ok s) :
    s.Tracked g [] := by
  have hnone : ∀ n, ¬ Search.Open ⟨[], []⟩ n :=
    fun n hn => List.not_mem_nil hn.1
  have hstart : Search.Tracked g [] ⟨[], []⟩ :=
    ⟨by simp, by simp, fun n hn => absurd hn (hnone n),
      fun n hn => absurd hn (hnone n), trivial⟩
  have hsteps := (steps_of_exploreAll (fun n hn => List.mem_range.1 hn) h).1
  exact hstart.steps hg hsteps (.initial g)

/-! ## Searches that end early -/

/-- A search is ended by an edge from a node to itself. -/
theorem edge_of_explore_error {stack : List Nat} {s : Search} {n : Nat}
    (hs : g.explore stack s = .error n) : g.Edge n n := by
  induction stack, s using explore.induct g with
  | case1 s =>
    rw [explore] at hs
    cases hs
  | case2 s k rest hnew hloop =>
    rw [explore, dif_pos hnew, if_pos hloop] at hs
    cases hs
    exact mem_successors.1 hloop
  | case3 s k rest hnew hloop discovered fresh ih =>
    rw [explore, dif_pos hnew, if_neg hloop] at hs
    exact ih hs
  | case4 s k rest hold hdone ih =>
    rw [explore, dif_neg hold, if_pos hdone] at hs
    exact ih hs
  | case5 s k rest hold hopen ih =>
    rw [explore, dif_neg hold, if_neg hopen] at hs
    exact ih hs

theorem edge_of_exploreAll_error {nodes : List Nat} {s : Search} {n : Nat}
    (hs : g.exploreAll nodes s = .error n) : g.Edge n n := by
  induction nodes generalizing s with
  | nil => cases hs
  | cons k rest ih =>
    rw [exploreAll] at hs
    by_cases hk : k ∈ s.discovered
    · rw [if_pos hk] at hs
      exact ih hs
    · rw [if_neg hk] at hs
      cases hexplore : g.explore [k] s with
      | error m =>
        rw [hexplore] at hs
        cases hs
        exact edge_of_explore_error hexplore
      | ok t =>
        rw [hexplore] at hs
        exact ih hs

/-! ## Looking back -/

/-- An edge that leads back in an order of finishing closes a cycle. -/
theorem transGen_of_backSource? {passed order : List Nat} {m : Nat}
    (hnodup : order.Nodup) (hsettled : g.Settled order)
    (hall : ∀ n k, g.Edge n k → n ∈ passed ∨ n ∈ order)
    (h : g.backSource? passed order = some m) : TransGen g.Edge m m := by
  induction order generalizing passed with
  | nil => cases h
  | cons n rest ih =>
    rw [List.nodup_cons] at hnodup
    rw [backSource?] at h
    split at h
    · next k hfind =>
      cases h
      have he : g.Edge m n :=
        mem_predecessors.1 (List.mem_of_find?_eq_some hfind)
      have hnew : m ∉ n :: passed := by simpa using List.find?_some hfind
      have hm : m ∈ rest := by
        rcases hall m n he with hm | hm
        · exact absurd (List.mem_cons_of_mem _ hm) hnew
        · exact (List.mem_cons.1 hm).resolve_left fun hmn =>
            hnew (hmn ▸ List.mem_cons_self)
      -- the source was finished first, so its target was open then and leads
      -- back to it
      have hback := (hsettled.2.of_mem hm he).resolve_left hnodup.1
      exact .head he hback
    · refine ih hnodup.2 hsettled.2 (fun k l he => ?_) h
      rcases hall k l he with hk | hk
      · exact .inl (List.mem_cons_of_mem _ hk)
      · rcases List.mem_cons.1 hk with rfl | hk
        · exact .inl List.mem_cons_self
        · exact .inr hk

/-- When no edge leads back, every edge leads forward or comes from a node
passed before. -/
theorem idxOf_lt_of_backSource? {passed order : List Nat}
    (hloop : ∀ n, ¬ g.Edge n n) (h : g.backSource? passed order = none)
    {i j : Nat} (he : g.Edge i j) (hj : j ∈ order) :
    i ∈ passed ∨ order.idxOf i < order.idxOf j := by
  induction order generalizing passed with
  | nil => cases hj
  | cons n rest ih =>
    rw [backSource?] at h
    split at h
    · cases h
    · next hfind =>
      by_cases hjn : n = j
      · -- the target is passed here, and with it every source of it
        subst hjn
        have hi := List.find?_eq_none.1 hfind i (mem_predecessors.2 he)
        have hpassed : i ∈ n :: passed := by
          rwa [Bool.not_eq_true', Bool.not_eq_false,
            List.contains_iff_mem] at hi
        exact .inl ((List.mem_cons.1 hpassed).resolve_left fun hin =>
          hloop n (hin ▸ he))
      · have hrest : j ∈ rest := (List.mem_cons.1 hj).resolve_left (Ne.symm hjn)
        rw [List.idxOf_cons_ne rest hjn]
        by_cases hin : n = i
        · subst hin
          rw [List.idxOf_cons_self]
          exact .inr (Nat.succ_pos _)
        · rw [List.idxOf_cons_ne rest hin]
          rcases ih h hrest with hi | hlt
          · exact .inl ((List.mem_cons.1 hi).resolve_left (Ne.symm hin))
          · exact .inr (Nat.succ_lt_succ hlt)

/-! ## Orders and cycles -/

/-- The search succeeds and its order passes the look back, or a node on a cycle
is found. -/
theorem topologicalOrder_cases (hg : g.InRange) :
    (∃ order, g.topologicalOrder = .ok order
        ∧ ∀ i j, g.Edge i j → order.idxOf i < order.idxOf j)
      ∨ ∃ n, g.topologicalOrder = .error n ∧ TransGen g.Edge n n := by
  rw [topologicalOrder]
  cases hsearch : g.exploreAll (List.range g.size) ⟨[], []⟩ with
  | error n => exact .inr ⟨n, rfl, .single (edge_of_exploreAll_error hsearch)⟩
  | ok s =>
    -- the search goes through, and has every node in its order
    obtain ⟨hsound, hmem⟩ := sound_of_exploreAll hg hsearch
    have htracked := tracked_of_exploreAll hg hsearch
    cases hback : g.backSource? [] s.finished with
    | some n =>
      refine .inr ⟨n, by simp [bind, Except.bind, hback], ?_⟩
      exact transGen_of_backSource? hsound.nodup htracked.settled
        (fun i j he => .inr (hmem i (hg _ he).1)) hback
    | none =>
      refine .inl ⟨s.finished, by simp [bind, Except.bind, hback],
        fun i j he => ?_⟩
      have hloop : ∀ n, ¬ g.Edge n n := fun n hn =>
        htracked.loopless n (htracked.discovered n (hmem n (hg _ hn).1)) hn
      simpa using idxOf_lt_of_backSource? hloop hback he (hmem j (hg _ he).2)

/-- In an order that is found every edge leads forward. -/
theorem idxOf_lt_of_topologicalOrder (hg : g.InRange) {order : List Nat}
    (h : g.topologicalOrder = .ok order) {i j : Nat} (he : g.Edge i j) :
    order.idxOf i < order.idxOf j := by
  obtain ⟨order', h', hforward⟩ | ⟨n, h', _⟩ := topologicalOrder_cases hg
  · rw [h] at h'
    cases h'
    exact hforward i j he
  · rw [h] at h'
    cases h'

/-- A node that is found instead of an order lies on a cycle. -/
theorem transGen_of_topologicalOrder (hg : g.InRange) {n : Nat}
    (h : g.topologicalOrder = .error n) : TransGen g.Edge n n := by
  obtain ⟨order, h', _⟩ | ⟨m, h', hcycle⟩ := topologicalOrder_cases hg
  · rw [h] at h'
    cases h'
  · rw [h] at h'
    cases h'
    exact hcycle

/-- A measure that every edge raises leaves no cycle. -/
theorem not_transGen_of_lt {α : Type} {r : α → α → Prop} (measure : α → Nat)
    (h : ∀ {a b : α}, r a b → measure a < measure b) (a : α) :
    ¬ TransGen r a a := by
  have hlt : ∀ {b : α}, TransGen r a b → measure a < measure b := by
    intro b hpath
    induction hpath with
    | single hstep => exact h hstep
    | tail _ hstep ih => exact Nat.lt_trans ih (h hstep)
  exact fun hcycle => Nat.lt_irrefl _ (hlt hcycle)

/-- An order is found iff there is no cycle. -/
theorem exists_topologicalOrder_iff (hg : g.InRange) :
    (∃ order, g.topologicalOrder = .ok order) ↔ ∀ n, ¬ TransGen g.Edge n n := by
  constructor
  · rintro ⟨order, h⟩
    exact not_transGen_of_lt order.idxOf (idxOf_lt_of_topologicalOrder hg h)
  · intro hacyclic
    obtain ⟨order, h, _⟩ | ⟨n, _, hcycle⟩ := topologicalOrder_cases hg
    · exact ⟨order, h⟩
    · exact absurd hcycle (hacyclic n)

end IntentGraph.Digraph
