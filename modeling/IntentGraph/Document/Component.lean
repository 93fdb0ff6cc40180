import IntentGraph.Document.Kind
import IntentGraph.Document.Trigger
import IntentGraph.Key.KeySet
import IntentGraph.Key.Template

/-!
# Components

A component renders state and dispatches to actions. It has an id, a kind, open
properties, a source of data, events, and children, which are ids of other
components.

* `Component.readKeys` are the keys it renders or binds to: by a binding
  property, by a template in a property, or by its data source.
* `Component.staticOptions?` are the options of a select that stand in the
  document.
-/

namespace IntentGraph

/-! ## Parts of a component -/

/-- Where a component takes its data from. -/
inductive DataSource where
  | literal (value : Json)
  | state (key : String)
  | derived (source : String) (expr : Option String)
  | unknown (raw : Json)
  deriving DecidableEq

namespace DataSource

/-- The key that a data source reads. -/
def readKey? : DataSource → Option String
  | .state key => some key
  | .derived source _ => some source
  | .literal _ | .unknown _ => none

/-- The payload of a data source that was not recognized. -/
def raw? : DataSource → Option Json
  | .unknown raw => some raw
  | _ => none

/-- The recognized forms of a data source. -/
def alternatives : List (Alternative DataSource) := [
  ⟨["static"],
    decodeRecord "Static" (.literal .null)
      [.defaulted "value" decodeJson fun value _ => .literal value]⟩,
  ⟨["state"],
    decodeRecord "State" (.state "")
    [.required "key" decodeString fun key _ => .state key]⟩,
  ⟨["derived"], fun source =>
    (decodeRecord "Derived" ("", none)
      [.required "from" decodeString fun source draft => (source, draft.2),
        .defaulted "expr" (decodeOption decodeString) fun expr draft =>
          (draft.1, expr)]
      source).map fun (source, expr) => .derived source expr⟩]

/-- Reads a data source. -/
def decode : Decoder DataSource := decodeTagged alternatives .unknown

/-- Writes a data source. -/
def encode : DataSource → Json
  | .literal value => .object [("type", .string "static"), ("value", value)]
  | .state key => .object [("type", .string "state"), ("key", .string key)]
  | .derived source expr => .record [
      Entry.always "type" (.string "derived"),
      Entry.always "from" (.string source), Entry.text? "expr" expr]
  | .unknown raw => raw

end DataSource

/-- A child of a component: the id of another component, or a definition in
place, which is read only so that it can be reported. -/
inductive ChildRef where
  | named (id : String)
  | inlined (raw : Json)
  deriving DecidableEq

namespace ChildRef

/-- The id of a child that is given by one. -/
def id? : ChildRef → Option String
  | .named id => some id
  | .inlined _ => none

/-- Reads a child. -/
def decode : Decoder ChildRef := fun source => do
  match ← source.held with
  | .string id => return .named id
  | held => return .inlined (← decodeJson held)

/-- Writes a child. -/
def encode : ChildRef → Json
  | .named id => .string id
  | .inlined raw => raw

end ChildRef

/-- An event of a component, which dispatches to an action, writes a state key,
or both. -/
structure ComponentEvent where
  kind : String
  actionId : Option String
  stateUpdate : Option String
  args : Fields
  deriving DecidableEq

namespace ComponentEvent

/-- The kind of an event that only updates state. -/
def stateUpdateKind : String := "stateUpdate"

/-- Whether an event writes state without an action. -/
def isStateUpdate (e : ComponentEvent) : Bool :=
  e.stateUpdate.any (· ≠ "") || e.kind = stateUpdateKind

/-- The fields of an event. -/
def fields : List (Field ComponentEvent) := [
  .required "kind" decodeString fun kind e => { e with kind },
  .defaulted "actionId" (decodeOption decodeString) fun actionId e =>
    { e with actionId },
  .defaulted "stateUpdate" (decodeOption decodeString) fun stateUpdate e =>
    { e with stateUpdate },
  .defaulted "args" decodeFields fun args e => { e with args }]

/-- Reads an event. -/
def decode : Decoder ComponentEvent :=
  decodeRecord "ComponentEvent" ⟨"", none, none, []⟩ fields

/-- Writes an event. -/
def encode (e : ComponentEvent) : Json := .record [
  Entry.always "kind" (.string e.kind),
  Entry.text? "actionId" e.actionId,
  Entry.text? "stateUpdate" e.stateUpdate,
  Entry.fields "args" e.args]

end ComponentEvent

/-! ## Components -/

/-- A component of a document. -/
structure Component where
  id : String
  kind : ComponentKind
  properties : Fields
  dataSource : Option DataSource
  events : List ComponentEvent
  children : List ChildRef
  pageId : Option String
  deriving DecidableEq

namespace Component

/-- The properties that bind a component to a state key. -/
def bindingProperties : List String :=
  ["bindKey", "dataKey", "optionsKey", "disabledKey", "visibleKey",
    "loadingKey", "statusKey", "errorKey"]

/-- The text at a property. -/
def property? (c : Component) (key : String) : Option String :=
  (c.properties.get? key).bind Json.asString?

/-- The nonempty text at a property. -/
def nonemptyProperty? (c : Component) (key : String) : Option String :=
  (c.property? key).filter (· ≠ "")

/-- The field of an option that holds its value. -/
def optionValueKey (c : Component) : String :=
  (c.nonemptyProperty? "optionValueKey").getD "value"

/-- The key that the component's own value is bound to. -/
def bindKey? (c : Component) : Option String := c.nonemptyProperty? "bindKey"

/-- Every state key that the component renders or binds to. -/
def readKeys (c : Component) : KeySet :=
  KeySet.ofList (bindingProperties.filterMap c.nonemptyProperty?
    ++ c.properties.values.flatMap Template.keysOf
    ++ (c.dataSource.bind DataSource.readKey?).toList)

/-- The actions that the component's events dispatch to. -/
def actionRefs (c : Component) : List String := c.events.filterMap (·.actionId)

/-- The keys that the component's events write, as they are spelled. -/
def stateUpdates (c : Component) : List String :=
  c.events.filterMap (·.stateUpdate)

/-- The keys that the component writes without an action. -/
def ownWrites (c : Component) : List String :=
  c.bindKey?.toList ++ c.stateUpdates.filter (· ≠ "")

/-- The options that stand in the document: those of the property, or else of a
literal data source. -/
def staticOptions? (c : Component) : Option (List Json) :=
  match c.properties.get? "options" with
  | some (.array options) => some options
  | _ =>
    match c.dataSource with
    | some (.literal (.array options)) => some options
    | _ => none

/-- The ids of the children that are given by one. -/
def childIds (c : Component) : List String := c.children.filterMap ChildRef.id?

/-- Whether a child is defined in place. -/
def hasInlineChild (c : Component) : Bool := c.children.any (·.id?.isNone)

/-- The fields of a component. -/
def fields : List (Field Component) := [
  .required "id" decodeString fun id c => { c with id },
  .required "kind" ComponentKind.decode fun kind c => { c with kind },
  .defaulted "properties" decodeFields fun properties c =>
    { c with properties },
  .defaulted "dataSource" (decodeOption DataSource.decode) fun dataSource c =>
    { c with dataSource },
  .defaulted "events" (decodeList ComponentEvent.decode) fun events c =>
    { c with events },
  .defaulted "children" (decodeList ChildRef.decode) fun children c =>
    { c with children },
  .defaulted "pageId" (decodeOption decodeString) fun pageId c =>
    { c with pageId }]

/-- Reads a component. -/
def decode : Decoder Component :=
  decodeRecord "Component" ⟨"", .unknown "", [], none, [], [], none⟩ fields

/-- Writes a component. -/
def encode (c : Component) : Json := .record [
  Entry.always "id" (.string c.id),
  Entry.always "kind" (.string c.kind.name),
  Entry.fields "properties" c.properties,
  Entry.present "dataSource" DataSource.encode c.dataSource,
  Entry.list "events" ComponentEvent.encode c.events,
  Entry.list "children" ChildRef.encode c.children,
  Entry.text? "pageId" c.pageId]

end Component

end IntentGraph
