import IntentGraph.Document.Action
import IntentGraph.Document.Component
import IntentGraph.Json.Basic
import IntentGraph.Wire.Decoder

/-!
# Pages, mutations and snapshots

A mutation is a set of changes to pages, components, actions and initial
state; a snapshot is what it applies to.
-/

namespace IntentGraph

/-!
## Pages

A page owns components by their ids and wires lifecycle events to actions.
-/

/-- An event of a page and the action it runs. -/
structure PageEvent where
  kind : String
  actionId : String
  deriving DecidableEq

namespace PageEvent

/-- Reads an event of a page. -/
def decode : Decoder PageEvent := decodeRecord "PageEvent" ⟨"", ""⟩ [
  .required "kind" decodeString fun kind e => { e with kind },
  .required "actionId" decodeString fun actionId e => { e with actionId }]

/-- Writes an event of a page. -/
def encode (e : PageEvent) : Json :=
  .object [("kind", .string e.kind), ("actionId", .string e.actionId)]

end PageEvent

/-- A page of a document. -/
structure Page where
  id : String
  name : Option String
  route : Option String
  components : List String
  events : List PageEvent
  deriving DecidableEq

namespace Page

/-- Whether the page runs an action on an event. -/
def wires (p : Page) (event action : String) : Bool :=
  p.events.contains ⟨event, action⟩

/-- The page with an event wired to an action, unless it is already. -/
def wire (p : Page) (event action : String) : Page :=
  if p.wires event action then p
  else { p with events := p.events ++ [⟨event, action⟩] }

/-- The fields of a page. -/
def fields : List (Field Page) := [
  .required "id" decodeString fun id p => { p with id },
  .defaulted "name" (decodeOption decodeString) fun name p => { p with name },
  .defaulted "route" (decodeOption decodeString) fun route p =>
    { p with route },
  .defaulted "components" (decodeList decodeString) fun components p =>
    { p with components },
  .defaulted "events" (decodeList PageEvent.decode) fun events p =>
    { p with events }]

/-- Reads a page. -/
def decode : Decoder Page := decodeRecord "Page" ⟨"", none, none, [], []⟩ fields

/-- Writes a page. -/
def encode (p : Page) : Json := .record [
  Entry.always "id" (.string p.id),
  Entry.text? "name" p.name,
  Entry.text? "route" p.route,
  Entry.list "components" Json.string p.components,
  Entry.list "events" PageEvent.encode p.events]

end Page

/-!
## Mutations and snapshots

A mutation is a set of changes: pages, components, actions and initial state,
each added or updated. A snapshot is the document that was accepted before and
that a mutation applies to.
-/

/-- A set of changes to a document. -/
structure Mutation where
  pagesAdded : List Page
  componentsAdded : List Component
  actionsAdded : List Action
  stateAdded : Fields
  pagesUpdated : List Page
  componentsUpdated : List Component
  actionsUpdated : List Action
  stateUpdated : Fields
  containerPropsUpdated : Fields
  deriving DecidableEq

namespace Mutation

/-- The mutation that changes nothing. -/
def empty : Mutation := ⟨[], [], [], [], [], [], [], [], []⟩

/-- The actions, those added before those updated. -/
def actions (m : Mutation) : List Action := m.actionsAdded ++ m.actionsUpdated

/-- The components, those added before those updated. -/
def components (m : Mutation) : List Component :=
  m.componentsAdded ++ m.componentsUpdated

/-- The pages, those added before those updated. -/
def pages (m : Mutation) : List Page := m.pagesAdded ++ m.pagesUpdated

/-- The entries of both state maps, those added before those updated. -/
def state (m : Mutation) : Fields := m.stateAdded ++ m.stateUpdated

/-- The number of actions. -/
def actionCount (m : Mutation) : Nat :=
  m.actionsAdded.length + m.actionsUpdated.length

/-- The first action with an id. -/
def action? (m : Mutation) (id : String) : Option Action :=
  m.actions.find? (·.id == id)

/-- Whether the mutation changes nothing. -/
def isEmpty (m : Mutation) : Bool :=
  m.pagesAdded.isEmpty && m.componentsAdded.isEmpty && m.actionsAdded.isEmpty
    && m.stateAdded.isEmpty
    && m.pagesUpdated.isEmpty && m.componentsUpdated.isEmpty
    && m.actionsUpdated.isEmpty && m.stateUpdated.isEmpty
    && m.containerPropsUpdated.isEmpty

/-- The list with its first element that fits changed, or nothing when none
fits. -/
def modifyFirst? {α : Type} (fits : α → Bool) (f : α → α) :
    List α → Option (List α)
  | [] => none
  | x :: rest =>
    if fits x then some (f x :: rest)
      else (modifyFirst? fits f rest).map (x :: ·)

/-- The mutation with the first action of an id changed, or nothing when there
is none. -/
def modifyAction? (m : Mutation) (id : String) (f : Action → Action) :
    Option Mutation :=
  match modifyFirst? (·.id == id) f m.actionsAdded with
  | some actionsAdded => some { m with actionsAdded }
  | none =>
    (modifyFirst? (·.id == id) f m.actionsUpdated).map fun actionsUpdated =>
      { m with actionsUpdated }

/-- The mutation with the first page of an id changed, or nothing when there is
none. -/
def modifyPage? (m : Mutation) (id : String) (f : Page → Page) :
    Option Mutation :=
  match modifyFirst? (·.id == id) f m.pagesAdded with
  | some pagesAdded => some { m with pagesAdded }
  | none =>
    (modifyFirst? (·.id == id) f m.pagesUpdated).map fun pagesUpdated =>
      { m with pagesUpdated }

/-- The fields of a mutation. -/
def fields : List (Field Mutation) := [
  .defaulted "pagesAdded" (decodeList Page.decode) fun pagesAdded m =>
    { m with pagesAdded },
  .defaulted "componentsAdded" (decodeList Component.decode)
  fun componentsAdded m => { m with componentsAdded },
  .defaulted "actionsAdded" (decodeList Action.decode) fun actionsAdded m =>
    { m with actionsAdded },
  .defaulted "stateAdded" decodeFields fun stateAdded m =>
    { m with stateAdded },
  .defaulted "pagesUpdated" (decodeList Page.decode) fun pagesUpdated m =>
    { m with pagesUpdated },
  .defaulted "componentsUpdated" (decodeList Component.decode)
  fun componentsUpdated m => { m with componentsUpdated },
  .defaulted "actionsUpdated" (decodeList Action.decode) fun actionsUpdated m =>
    { m with actionsUpdated },
  .defaulted "stateUpdated" decodeFields fun stateUpdated m =>
    { m with stateUpdated },
  .defaulted "containerPropsUpdated" decodeFields fun containerPropsUpdated m =>
    { m with containerPropsUpdated }]

/-- Reads a mutation. -/
def decode : Decoder Mutation := decodeRecord "Mutation" empty fields

/-- Writes a mutation. -/
def encode (m : Mutation) : Json := .record [
  Entry.list "pagesAdded" Page.encode m.pagesAdded,
  Entry.list "componentsAdded" Component.encode m.componentsAdded,
  Entry.list "actionsAdded" Action.encode m.actionsAdded,
  Entry.fields "stateAdded" m.stateAdded,
  Entry.list "pagesUpdated" Page.encode m.pagesUpdated,
  Entry.list "componentsUpdated" Component.encode m.componentsUpdated,
  Entry.list "actionsUpdated" Action.encode m.actionsUpdated,
  Entry.fields "stateUpdated" m.stateUpdated,
  Entry.fields "containerPropsUpdated" m.containerPropsUpdated]

end Mutation

/-- A document that was accepted before. -/
structure Snapshot where
  pages : List Page
  components : List Component
  actions : List Action
  state : Fields
  deriving DecidableEq

namespace Snapshot

/-- The snapshot of nothing. -/
def empty : Snapshot := ⟨[], [], [], []⟩

/-- The fields of a snapshot. -/
def fields : List (Field Snapshot) := [
  .defaulted "pages" (decodeList Page.decode) fun pages s => { s with pages },
  .defaulted "components" (decodeList Component.decode) fun components s =>
    { s with components },
  .defaulted "actions" (decodeList Action.decode) fun actions s =>
    { s with actions },
  .defaulted "state" decodeFields fun state s => { s with state }]

/-- Reads a snapshot. -/
def decode : Decoder Snapshot := decodeRecord "Snapshot" empty fields

/-- Writes a snapshot. -/
def encode (s : Snapshot) : Json := .record [
  Entry.list "pages" Page.encode s.pages,
  Entry.list "components" Component.encode s.components,
  Entry.list "actions" Action.encode s.actions,
  Entry.fields "state" s.state]

end Snapshot

end IntentGraph
