import IntentGraph.Audit
import IntentGraph.Ownership
import IntentGraph.Reachability

/-!
# Binding of orphans

Every orphan gets a trigger. One that refers to a state key by a template waits
for a change of that key. A call to an integration runs when a page is loaded:
the page it names itself, or else the page that renders its result, or else the
first page there is. All others get an internal trigger as a safety net.

Bindings are planned on the mutation as it comes and then carried out one after
the other. A page that only the snapshot has is carried into the mutation when
an action is wired to it.
-/

namespace IntentGraph

/-- How an orphan is made to run. -/
inductive Binding where
  | stateChange (key : String)
  | pageLoad (page : String)
  | safetyNet
  deriving DecidableEq

/-! ## Planning -/

namespace View

/-- The page that an action names itself, if there is such a page. -/
def namedPage? (v : View) (a : Action) : Option String :=
  ((a.config.get? ConfigKey.pageId).bind Json.asString?).filter fun id =>
    (v.page? id).isSome

/-- The page of the first component that renders a key and is on a page. -/
def renderingPage? (v : View) (key : String) : Option String :=
  let ownership := Ownership.ofView v
  ((v.components.filter fun c => c.readKeys.contains key).filterMap fun c =>
    ownership.pageOf? c.id).find? fun id => (v.page? id).isSome

/-- The page on whose load a call to an integration is to run. -/
def targetPage? (v : View) (a : Action) : Option String :=
  (v.namedPage? a).or
    ((a.assignedKey?.bind v.renderingPage?).or (v.pages.head?.map (·.id)))

/-- How an action is made to run. -/
def chooseBinding (v : View) (a : Action) : Binding :=
  match a.templatedKeys.members with
  | key :: _ => .stateChange key
  | [] =>
    if a.kind = .integrationCall then
      match v.targetPage? a with
      | some page => .pageLoad page
      | none => .safetyNet
    else .safetyNet

/-- The orphans that are left once some ids are removed, and how they are made
to run. -/
def bindingPlans (v : View) (reach : Reachability) (removed : List String) :
    List (String × Binding) :=
  ((reach.orphans.filter fun id => !removed.contains id).filterMap
    v.mutation.action?).map fun a =>
    (a.id, v.chooseBinding a)

end View

/-! ## Carrying out -/

namespace Binding

/-- The trigger that a binding adds. -/
def trigger (reason : String) : Binding → Trigger
  | .stateChange key => .stateChange key
  | .pageLoad _ => .lifecycle Lifecycle.pageLoad
  | .safetyNet => .internal reason

/-- The rule that a binding is recorded under. -/
def rule : Binding → AuditRule
  | .stateChange _ => .bindStateChange
  | .pageLoad _ => .bindPageLoad
  | .safetyNet => .bindSafetyNet

/-- What the record of a binding says. -/
def detail (reason : String) : Binding → String
  | .stateChange key => "bound to state change of '" ++ key ++ "'"
  | .pageLoad page =>
    "bound to " ++ Lifecycle.pageLoad ++ " of page '" ++ page ++ "'"
  | .safetyNet => "bound to internal trigger '" ++ reason ++ "'"

/-- The record of a binding. -/
def record (reason id : String) (b : Binding) : AuditRecord :=
  ⟨.repair, some id, b.rule, b.detail reason⟩

end Binding

/-- The action with a trigger, unless it has it. -/
def Action.addTrigger (trigger : Trigger) (a : Action) : Action :=
  if a.triggeredBy.contains trigger then a
  else { a with triggeredBy := a.triggeredBy ++ [trigger] }

namespace Mutation

/-- The mutation with an action wired to the load of a page. A page of the
snapshot is carried into the mutation. -/
def wirePageLoad (m : Mutation) (prior : Option Snapshot)
    (page action : String) : Mutation :=
  let wire := fun p : Page => p.wire Lifecycle.pageLoad action
  match m.modifyPage? page wire with
  | some m => m
  | none =>
    match (prior.map (·.pages)).bind fun pages =>
      pages.find? (·.id == page) with
    | some p => { m with pagesUpdated := m.pagesUpdated ++ [wire p] }
    | none => m

/-- The mutation with an action made to run. -/
def bind (m : Mutation) (prior : Option Snapshot) (reason : String)
    (id : String) (b : Binding) :
    Mutation :=
  let bound :=
    (m.modifyAction? id (Action.addTrigger (b.trigger reason))).getD m
  match b with
  | .pageLoad page => bound.wirePageLoad prior page id
  | _ => bound

/-- The mutation with every planned binding carried out. -/
def bindAll (m : Mutation) (prior : Option Snapshot) (reason : String)
    (plans : List (String × Binding)) : Mutation :=
  plans.foldl (fun m (id, b) => m.bind prior reason id b) m

end Mutation

end IntentGraph
