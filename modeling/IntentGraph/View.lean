import IntentGraph.Document.IntentDocument

/-!
# The merged view

A mutation is always read together with the snapshot it applies to: an entry of
the mutation shadows an entry of the snapshot with the same id, and of several
entries with one id the first counts. `View` is that reading, and the indexes
that the analyses share.

* `distinctBy` keeps the first element of every key, in order.
* `View.isConsumed` says whether anything reads a key.
* `View.listeners` are the actions that a change of a key wakes; reachability
  and the dry run both follow them.
-/

namespace IntentGraph

/-- The elements of a list that are the first with their key, in order. -/
def distinctBy {α β : Type} [DecidableEq β] (key : α → β)
    (xs : List α) : List α :=
  xs.eraseDupsBy fun x y => key x = key y

theorem distinctBy_nil {α β : Type} [DecidableEq β] (key : α → β) :
    distinctBy key [] = [] := rfl

/-- The first element stays, and what has its key goes. -/
theorem distinctBy_cons {α β : Type} [DecidableEq β] (key : α → β) (x : α)
    (rest : List α) :
    distinctBy key (x :: rest)
      = x :: distinctBy key (rest.filter fun y => key y ≠ key x) := by
  simp [distinctBy, List.eraseDupsBy_cons]

/-- A mutation read over the snapshot it applies to. -/
structure View where
  mutation : Mutation
  prior : Option Snapshot

namespace View

/-- The view of a document. -/
def ofDocument (d : IntentDocument) : View := ⟨d.mutation, d.prior⟩

/-! ## Entries -/

/-- The actions, those of the mutation first. -/
def actions (v : View) : List Action :=
  distinctBy (·.id) (v.mutation.actions ++ (v.prior.map (·.actions)).getD [])

/-- The components, those of the mutation first. -/
def components (v : View) : List Component :=
  distinctBy (·.id)
    (v.mutation.components ++ (v.prior.map (·.components)).getD [])

/-- The pages, those of the mutation first. -/
def pages (v : View) : List Page :=
  distinctBy (·.id) (v.mutation.pages ++ (v.prior.map (·.pages)).getD [])

/-- The action of an id. -/
def action? (v : View) (id : String) : Option Action :=
  v.actions.find? (·.id == id)

/-- The component of an id. -/
def component? (v : View) (id : String) : Option Component :=
  v.components.find? (·.id == id)

/-- The page of an id. -/
def page? (v : View) (id : String) : Option Page := v.pages.find? (·.id == id)

/-- The ids of the actions. -/
def actionIds (v : View) : List String := v.actions.map (·.id)

/-- The initial state: updates override additions, and these the snapshot. -/
def state (v : View) : Fields :=
  Fields.ofList
    ((v.prior.map (·.state)).getD [] ++ v.mutation.stateAdded
      ++ v.mutation.stateUpdated)

/-! ## Indexes -/

/-- The events of the pages. -/
def pageEvents (v : View) : List PageEvent := v.pages.flatMap (·.events)

/-- The ids that events of components and pages dispatch to. -/
def eventActionRefs (v : View) : KeySet :=
  KeySet.ofList (v.components.flatMap (·.actionRefs)
    ++ v.pageEvents.map (·.actionId))

/-- The keys that components render or bind to. -/
def componentReadKeys (v : View) : KeySet := 
  KeySet.ofList (v.components.flatMap (·.readKeys.members))

/-- Whether a component renders a key, or an action other than the one of id
`except` depends on it. -/
def isConsumed (v : View) (key except : String) : Bool :=
  v.components.any (·.readKeys.contains key)
    || v.actions.any fun a => a.id != except && a.readKeys.contains key

/-- The data keys that calls to integrations assign. -/
def integrationOutputs (v : View) : KeySet :=
  KeySet.ofList
    ((v.actions.filter (·.kind = .integrationCall)).filterMap (·.assignedKey?))

/-- The status and error keys that the executor keeps for calls to
integrations. -/
def executorManagedKeys (v : View) : KeySet :=
  KeySet.ofList (v.integrationOutputs.members.flatMap fun key =>
    [Key.status key, Key.error key])

/-- The ids of the actions that wait for a change of a key, once for every
trigger that does. -/
def listeners (v : View) (key : String) : List String :=
  v.actions.flatMap fun a => (a.watchedKeys.filter (· = key)).map fun _ => a.id

/-- The ids of the actions that a run of an action wakes, in the order of the
keys it writes. -/
def wokenBy (v : View) (a : Action) : List String :=
  a.mutatedKeys.members.flatMap v.listeners

end View

end IntentGraph
