import IntentGraph.Text
import IntentGraph.Wire.Decoder

/-!
# Kinds

The closed sets of kinds that actions and components have. A kind that is not
among them keeps its spelling, so that it can be migrated or reported.
-/

namespace IntentGraph

/-! ## Kinds of actions -/

/-- What an action is. -/
inductive ActionKind where
  | integrationCall
  | internal
  | navigation
  | workflow
  | unknown (name : String)
  deriving DecidableEq

namespace ActionKind

/-- The name of a kind. -/
def name : ActionKind → String
  | .integrationCall => "integration_call"
  | .internal => "internal"
  | .navigation => "navigation"
  | .workflow => "workflow"
  | .unknown name => name

/-- The kinds that an action may have. -/
def allowed : List ActionKind :=
  [.integrationCall, .internal, .navigation, .workflow]

/-- The kind of a name, which is read like an id. -/
def ofName (name : String) : ActionKind :=
  (allowed.find? (·.name == canonicalId name)).getD (.unknown name)

/-- The spelling of a kind that is not allowed. -/
def unknown? : ActionKind → Option String
  | .unknown name => some name
  | _ => none

/-- Whether actions of a kind write state. -/
def isMutating : ActionKind → Bool
  | .integrationCall | .internal | .workflow => true
  | .navigation | .unknown _ => false

/-- Reads a kind. -/
def decode : Decoder ActionKind :=
  fun source => (decodeString source).map ofName

end ActionKind

/-! ## Kinds of components -/

/-- What a component is. -/
inductive ComponentKind where
  | container
  | text
  | heading
  | button
  | input
  | textarea
  | checkbox
  | select
  | dropdown
  | list
  | table
  | card
  | chart
  | heatmap
  | image
  | badge
  | form
  | modal
  | tabs
  | divider
  | unknown (name : String)
  deriving DecidableEq

namespace ComponentKind

/-- The name of a kind. -/
def name : ComponentKind → String
  | .container => "container"
  | .text => "text"
  | .heading => "heading"
  | .button => "button"
  | .input => "input"
  | .textarea => "textarea"
  | .checkbox => "checkbox"
  | .select => "select"
  | .dropdown => "dropdown"
  | .list => "list"
  | .table => "table"
  | .card => "card"
  | .chart => "chart"
  | .heatmap => "heatmap"
  | .image => "image"
  | .badge => "badge"
  | .form => "form"
  | .modal => "modal"
  | .tabs => "tabs"
  | .divider => "divider"
  | .unknown name => name

/-- The kinds that a component may have. -/
def allowed : List ComponentKind :=
  [.container, .text, .heading, .button, .input, .textarea, .checkbox, .select,
    .dropdown, .list, .table, .card, .chart, .heatmap, .image, .badge, .form,
    .modal, .tabs, .divider]

/-- The kind of a name, without regard to case and to blanks around it. -/
def ofName (name : String) : ComponentKind :=
  let wanted := String.ofList (Text.lowercase (Text.trim name.toList))
  (allowed.find? (·.name == wanted)).getD (.unknown name)

/-- The spelling of a kind that is not allowed. -/
def unknown? : ComponentKind → Option String
  | .unknown name => some name
  | _ => none

/-- Whether components of a kind let the user choose among options. -/
def isSelectLike : ComponentKind → Bool
  | .select | .dropdown => true
  | _ => false

/-- Reads a kind. -/
def decode : Decoder ComponentKind :=
  fun source => (decodeString source).map ofName

end ComponentKind

end IntentGraph
