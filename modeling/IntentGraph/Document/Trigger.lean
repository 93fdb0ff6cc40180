import IntentGraph.Json.Basic
import IntentGraph.Wire.Decoder

/-!
# Triggers

What makes an action run: a lifecycle event of the application or of a page, a
change of a state key, an event of a component, or an internal reason. A trigger
of any other form is kept as it was written, so that it can be reported.
-/

namespace IntentGraph

/-- What makes an action run. -/
inductive Trigger where
  | lifecycle (event : String)
  | stateChange (key : String)
  | componentEvent (component event : String)
  | internal (reason : String)
  | unknown (raw : Json)
  deriving DecidableEq

/-! ## Lifecycle events -/

namespace Lifecycle

/-- The event of a page being loaded. -/
def pageLoad : String := "onPageLoad"

/-- The event of a page being left. -/
def pageUnload : String := "onPageUnload"

/-- The event of the application being started. -/
def appStart : String := "onAppStart"

/-- The lifecycle events. -/
def events : List String := [pageLoad, pageUnload, appStart]

/-- Whether an event is a lifecycle event. -/
def isEvent (event : String) : Bool := events.contains event

end Lifecycle

/-- How messages refer to the type of a payload that was not recognized. -/
def describePayload (raw : Json) : String :=
  match raw.get? "type" with
  | some (.string t) => "'" ++ t ++ "'"
  | _ => "an untyped entry"

namespace Trigger

/-- The key whose change is waited for. -/
def stateKey? : Trigger → Option String
  | .stateChange key => some key
  | _ => none

/-- The payload of a trigger that was not recognized. -/
def raw? : Trigger → Option Json
  | .unknown raw => some raw
  | _ => none

/-! ## Wire form -/

/-- The recognized forms of a trigger. -/
def alternatives : List (Alternative Trigger) := [
  ⟨["lifecycle"],
    decodeRecord "Lifecycle" (.lifecycle "")
      [.required "event" decodeString fun event _ => .lifecycle event]⟩,
  ⟨["state_change", "stateChange"],
    decodeRecord "StateChange" (.stateChange "")
      [(Field.required "stateKey" decodeString fun key _ =>
        .stateChange key).withAlias "state_key"]⟩,
  ⟨["component_event", "componentEvent"], fun source =>
    (decodeRecord "ComponentEvent" ("", "")
      [(Field.required "componentId" decodeString fun component draft =>
          (component, draft.2)).withAlias "component_id",
        .required "event" decodeString fun event draft => (draft.1, event)]
      source).map fun (component, event) => .componentEvent component event⟩,
  ⟨["internal"],
    decodeRecord "Internal" (.internal "")
      [.required "reason" decodeString fun reason _ => .internal reason]⟩]

/-- Reads a trigger. -/
def decode : Decoder Trigger := decodeTagged alternatives .unknown

/-- Writes a trigger. -/
def encode : Trigger → Json
  | .lifecycle event =>
    .object [("type", .string "lifecycle"), ("event", .string event)]
  | .stateChange key =>
    .object [("type", .string "state_change"), ("stateKey", .string key)]
  | .componentEvent component event =>
    .object [("type", .string "component_event"),
      ("componentId", .string component), ("event", .string event)]
  | .internal reason =>
    .object [("type", .string "internal"), ("reason", .string reason)]
  | .unknown raw => raw

/-- Reads triggers: each item of a list, or one for all that is not a list. -/
def decodeOneOrMany : Decoder (List Trigger) := fun source => do
  discard source.held
  match source.items? with
  | some items => items.mapM decode
  | none => return [← decode source]

/-- Reads the triggers of an action, which are none for null. -/
def decodeMany : Decoder (List Trigger) := fun source => do
  return (← decodeOption decodeOneOrMany source).getD []

end Trigger

end IntentGraph
