import IntentGraph.Json.Basic
import IntentGraph.Wire.Decoder

/-!
# Steps

What an action does, one step after the other: write a state key from a literal
or from another key, call an integration, go to a page, or emit an event. A step
of any other form is kept as it was written.
-/

namespace IntentGraph

/-- One thing that an action does. -/
inductive Step where
  | stateMutation (key : String) (value : Option Json) (source : Option String)
  | integrationCall (capability : String) (params : Fields)
  | navigate (page : String)
  | emit (event : String)
  | unknown (raw : Json)
  deriving DecidableEq

namespace Step

/-- The step that copies one state key to another. -/
def copy (key source : String) : Step := .stateMutation key none (some source)

/-- The key that a step writes. -/
def writtenKey? : Step → Option String
  | .stateMutation key _ _ => some key
  | _ => none

/-- The key that a step writes without reading another one. -/
def literalKey? : Step → Option String
  | .stateMutation key _ none => some key
  | _ => none

/-- The key that a step copies from. -/
def sourceKey? : Step → Option String
  | .stateMutation _ _ source => source
  | _ => none

/-- The values inside a step that may hold templates. -/
def payloads : Step → List Json
  | .stateMutation _ (some value) _ => [value]
  | .integrationCall _ params => params.values
  | _ => []

/-- The payload of a step that was not recognized. -/
def raw? : Step → Option Json
  | .unknown raw => some raw
  | _ => none

/-! ## Wire form -/

/-- The recognized forms of a step. -/
def alternatives : List (Alternative Step) := [
  ⟨["state_mutation", "stateMutation"], fun source =>
    (decodeRecord "StateMutation" ("", none, none)
      [.required "key" decodeString fun key draft => (key, draft.2),
        .defaulted "value" (decodeOption decodeJson) fun value draft =>
          (draft.1, value, draft.2.2),
        .defaulted "from" (decodeOption decodeString) fun source draft =>
          (draft.1, draft.2.1, source)]
      source).map fun (key, value, source) => .stateMutation key value source⟩,
  ⟨["integration_call", "integrationCall"], fun source =>
    (decodeRecord "IntegrationCall" ("", [])
      [.required "capability" decodeString fun capability draft =>
        (capability, draft.2),
        .defaulted "params" decodeFields fun params draft => (draft.1, params)]
      source).map fun (capability, params) =>
        .integrationCall capability params⟩,
  ⟨["navigate"],
    decodeRecord "Navigate" (.navigate "")
      [.required "page" decodeString fun page _ => .navigate page]⟩,
  ⟨["emit"],
    decodeRecord "Emit" (.emit "")
      [.required "event" decodeString fun event _ => .emit event]⟩]

/-- Reads a step. -/
def decode : Decoder Step := decodeTagged alternatives .unknown

/-- Writes a step. -/
def encode : Step → Json
  | .stateMutation key value source => .record [
      Entry.always "type" (.string "state_mutation"),
      Entry.always "key" (.string key), Entry.present "value" id value,
      Entry.text? "from" source]
  | .integrationCall capability params => .record [
      Entry.always "type" (.string "integration_call"),
      Entry.always "capability" (.string capability),
      Entry.fields "params" params]
  | .navigate page =>
    .object [("type", .string "navigate"), ("page", .string page)]
  | .emit event => .object [("type", .string "emit"), ("event", .string event)]
  | .unknown raw => raw

end Step

end IntentGraph
