import IntentGraph.View

/-!
# Reachability

Which actions can ever run. A walk starts from the roots, which are the actions
that an event dispatches to and those that have a trigger of their own, and
follows the keys an action writes to the actions that wait for them. An action
of the mutation that the walk does not reach is an orphan.
-/

namespace IntentGraph

/-- The outcome of the analysis: the ids of the mutation's actions, parted into
those that can run and those that cannot, the latter in document order. -/
structure Reachability where
  reachable : KeySet
  orphans : List String
  deriving DecidableEq

namespace Reachability

/-- Whether an action can run. -/
def isReachable (r : Reachability) (id : String) : Bool :=
  r.reachable.contains id

/-- Whether every action can run. -/
def isClosed (r : Reachability) : Bool := r.orphans.isEmpty

/-- Writes the outcome. -/
def encode (r : Reachability) : Json :=
  .object [("reachable", .ofStrings r.reachable),
    ("orphans", .ofStrings r.orphans)]

end Reachability

namespace View

/-- Whether a trigger can go off by itself. One on a component's event needs the
component. -/
def isRootTrigger (v : View) : Trigger → Bool
  | .lifecycle _ | .stateChange _ | .internal _ => true
  | .componentEvent component _ => v.components.any (·.id == component)
  | .unknown _ => false

/-- The ids that a walk starts from, each once: targets of events, and then
actions with a trigger of their own. -/
def roots (v : View) : List String :=
  distinctBy id
    ((v.eventActionRefs.members
      ++ (v.actions.filter fun a => a.triggeredBy.any v.isRootTrigger).map
        (·.id)).filter v.actionIds.contains)

/-- Walks on from the ids in `frontier`, past the ids seen so far, for at most
`fuel` of them, and gives all ids seen. -/
def walk (v : View) : (fuel : Nat) → (frontier seen : List String) → List String
  | 0, _, seen => seen
  | _ + 1, [], seen => seen
  | fuel + 1, id :: frontier, seen =>
    let woken := ((v.action? id).map v.wokenBy).getD []
    let fresh :=
      distinctBy (fun id => id) (woken.filter fun id => !seen.contains id)
    v.walk fuel (frontier ++ fresh) (seen ++ fresh)

/-- The ids of all actions that can run. -/
def reached (v : View) : List String := v.walk v.actions.length v.roots v.roots

/-- Parts the actions of the mutation into those that can run and orphans. -/
def reachability (v : View) : Reachability :=
  let ids := v.mutation.actions.map (·.id)
  let reached := v.reached
  { reachable := KeySet.ofList (ids.filter reached.contains)
    orphans := distinctBy id (ids.filter fun id => !reached.contains id) }

end View

end IntentGraph
