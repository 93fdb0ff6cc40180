import IntentGraph.Json.Printer
import IntentGraph.Text.Quoted
import IntentGraph.Wire.Source

/-!
# Why a text is refused

The causes for which a decoder refuses a source tree, and their wording. A cause
is either a fault of the text itself or a mismatch between a well-formed text
and the expected shape.
-/

namespace IntentGraph

/-- What stood where something else was expected. -/
inductive Found where
  | null
  | bool (value : Bool)
  | number (value : Number)
  | nonFinite
  | string (value : String)
  | list
  | record
  deriving DecidableEq

namespace Found

/-- The wording of what was found. -/
def message : Found → String
  | .null => "null"
  | .bool b => "boolean `" ++ (if b then "true" else "false") ++ "`"
  | .number (.integer n) => "integer `" ++ toString n ++ "`"
  | .number (.double x) => "floating point `" ++ x.render Json.floatStyle ++ "`"
  | .nonFinite => "floating point"
  | .string s => "string " ++ Text.quoted s
  | .list => "sequence"
  | .record => "map"

end Found

/-- Why a decoder refuses a source tree. -/
inductive DecodeError where
  | malformed (fault : Fault)
  | invalidType (found : Found) (expected : String)
  | invalidValue (found : Found) (expected : String)
  | invalidLength (length : Nat) (expected : String)
  | unknownVariant (name : String) (expected : List String)
  | missingField (name : String)
  | duplicateField (name : String)
  deriving DecidableEq

/-- The three classes of refused texts: cut short, malformed, or of another
shape than expected. -/
inductive DecodeError.Category where
  | earlyEnd
  | malformed
  | shape
  deriving DecidableEq

namespace DecodeError

/-- The class of a refusal. -/
def category : DecodeError → Category
  | .malformed fault => if fault.isEarlyEnd then .earlyEnd else .malformed
  | _ => .shape

/-- A list of names as the alternatives of a choice. -/
def alternatives : List String → String
  | [] => "there are no variants"
  | [a] => "`" ++ a ++ "`"
  | [a, b] => "`" ++ a ++ "` or `" ++ b ++ "`"
  | names =>
    "one of " ++ ", ".intercalate (names.map fun name => "`" ++ name ++ "`")

/-- The wording of a refusal. -/
def message : DecodeError → String
  | .malformed fault => fault.message
  | .invalidType found expected =>
    "invalid type: " ++ found.message ++ ", expected " ++ expected
  | .invalidValue found expected =>
    "invalid value: " ++ found.message ++ ", expected " ++ expected
  | .invalidLength length expected =>
    "invalid length " ++ toString length ++ ", expected " ++ expected
  | .unknownVariant name expected =>
    "unknown variant `" ++ name ++ "`, expected " ++ alternatives expected
  | .missingField name => "missing field `" ++ name ++ "`"
  | .duplicateField name => "duplicate field `" ++ name ++ "`"

end DecodeError

end IntentGraph
