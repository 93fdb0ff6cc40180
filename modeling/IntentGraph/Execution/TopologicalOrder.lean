/-!
# Topological order

An order of the nodes of a directed graph in which every edge leads forward,
found by depth-first search, or a node on a cycle when there is no such order.

The search has two phases. The first one finishes every node after all that it
leads to, and stops at an edge from a node to itself; the reverse of the order
of finishing is the candidate. The second phase goes through the candidate and
looks back along the edges: in a topological order every edge comes from a node
that was passed already.

The successors of a node are taken in the order in which their edges were added.
-/

namespace IntentGraph

/-- A directed graph on the nodes `0, 1, … , size - 1`, with its edges in the
order in which they were added. -/
structure Digraph where
  size : Nat
  edges : List (Nat × Nat)

namespace Digraph

/-- The targets of the edges that leave a node. -/
def successors (g : Digraph) (n : Nat) : List Nat :=
  (g.edges.filter (·.1 = n)).map (·.2)

/-- The sources of the edges that enter a node. -/
def predecessors (g : Digraph) (n : Nat) : List Nat :=
  (g.edges.filter (·.2 = n)).map (·.1)

/-- The nodes that are not among the discovered ones. -/
def undiscovered (g : Digraph) (discovered : List Nat) : List Nat :=
  (List.range g.size).filter fun n => !discovered.contains n

theorem length_undiscovered_lt {g : Digraph} {discovered : List Nat} {n : Nat}
    (hn : n < g.size) (hd : n ∉ discovered) :
    (g.undiscovered (n :: discovered)).length
      < (g.undiscovered discovered).length := by
  have key : g.undiscovered (n :: discovered)
      = (g.undiscovered discovered).filter (· ≠ n) := by
    simp only [undiscovered, List.filter_filter]
    congr 1
    funext m
    by_cases h : m = n <;> simp [h]
  rw [key]
  refine List.length_filter_lt_length_iff_exists.2 ⟨n, ?_, by simp⟩
  simp [undiscovered, hn, hd]

/-! ## Finishing -/

/-- The nodes discovered and the nodes finished so far, the last one first. -/
structure Search where
  discovered : List Nat
  finished : List Nat

/-- Searches on from the nodes on a stack. A node stays on the stack until all
that it leads to is finished. An edge from a node to itself ends the search. -/
def explore (g : Digraph) (stack : List Nat) (s : Search) : Except Nat Search :=
  match stack with
  | [] => .ok s
  | n :: rest =>
    if _h : n < g.size ∧ n ∉ s.discovered then
      -- met for the first time: what it leads to is finished before it
      if n ∈ g.successors n then .error n
      else
        let discovered := n :: s.discovered
        let fresh := (g.successors n).filter fun m => !discovered.contains m
        explore g (fresh ++ n :: rest) ⟨discovered, s.finished⟩
    -- met again: a node that was pushed more than once is finished only once
    else if n ∈ s.finished then explore g rest s
    else explore g rest ⟨s.discovered, n :: s.finished⟩
  termination_by ((g.undiscovered s.discovered).length, stack.length)
  decreasing_by
    · exact Prod.Lex.left _ _ (length_undiscovered_lt _h.1 _h.2)
    · exact Prod.Lex.right _ (by simp)
    · exact Prod.Lex.right _ (by simp)

/-- Searches from every node in turn that is not discovered yet. -/
def exploreAll (g : Digraph) : List Nat → Search → Except Nat Search
  | [], s => .ok s
  | n :: rest, s => do
    let s ← if n ∈ s.discovered then .ok s else g.explore [n] s
    exploreAll g rest s

/-! ## Looking back -/

/-- Goes through an order, given the nodes passed already, and finds the source
of an edge that leads back to a node. -/
def backSource? (g : Digraph) (passed : List Nat) : List Nat → Option Nat
  | [] => none
  | n :: rest =>
    match (g.predecessors n).find? fun m => !(n :: passed).contains m with
    | some m => some m
    | none => g.backSource? (n :: passed) rest

/-- An order of the nodes in which every edge leads forward, or a node on a
cycle. -/
def topologicalOrder (g : Digraph) : Except Nat (List Nat) := do
  let search ← g.exploreAll (List.range g.size) ⟨[], []⟩
  match g.backSource? [] search.finished with
  | some n => .error n
  | none => .ok search.finished

end Digraph

end IntentGraph
