import IntentGraph.Json.Basic

/-!
# Source trees

A text as it was read, before anyone has said what it should mean. A source tree
keeps what a value forgets and a decoder may still ask for: the order of
entries, repeated keys, and the place where the text stopped being well formed.

* A `Fault` is a reason why a text is not well formed, or why a well-formed part
  has no value.
* `Source.broken` stands where reading had to stop; nothing follows it. A list
  or record that was not closed carries its fault in `stop`.
* `Source.unusable` is well formed but has no value (a number out of range, half
  a surrogate pair, nesting without end). It is harmless where the part is
  skipped.
* JSON has lists and records, whose keys are texts. YAML has sequences and
  mappings, which stand for nothing but themselves, and keys of any kind; an
  unquoted scalar is `Source.plain`, since its type is left to its reader, and a
  `Label` may say what a part is to be read as.
-/

namespace IntentGraph

/-- Why a text is not well formed, or a part of it has no value. -/
inductive Fault where
  | endInList
  | endInObject
  | endInString
  | endInValue
  | expectedColon
  | expectedListCommaOrEnd
  | expectedObjectCommaOrEnd
  | expectedIdentifier
  | expectedValue
  | invalidEscape
  | invalidNumber
  | numberOutOfRange
  | controlCharacter
  | keyMustBeString
  | loneSurrogate
  | trailingComma
  | trailingCharacters
  | endOfHexEscape
  | tooDeep
  | tooManyAliases
  | badLayout
  deriving DecidableEq

namespace Fault

/-- Whether the text merely ended too early. -/
def isEarlyEnd : Fault → Bool
  | .endInList | .endInObject | .endInString | .endInValue => true
  | _ => false

/-- The wording of a fault. -/
def message : Fault → String
  | .endInList => "EOF while parsing a list"
  | .endInObject => "EOF while parsing an object"
  | .endInString => "EOF while parsing a string"
  | .endInValue => "EOF while parsing a value"
  | .expectedColon => "expected `:`"
  | .expectedListCommaOrEnd => "expected `,` or `]`"
  | .expectedObjectCommaOrEnd => "expected `,` or `\x7d`"
  | .expectedIdentifier => "expected ident"
  | .expectedValue => "expected value"
  | .invalidEscape => "invalid escape"
  | .invalidNumber => "invalid number"
  | .numberOutOfRange => "number out of range"
  | .controlCharacter =>
    "control character (\\u0000-\\u001F) found while parsing a string"
  | .keyMustBeString => "key must be a string"
  | .loneSurrogate => "lone leading surrogate in hex escape"
  | .trailingComma => "trailing comma"
  | .trailingCharacters => "trailing characters"
  | .endOfHexEscape => "unexpected end of hex escape"
  | .tooDeep => "recursion limit exceeded"
  | .tooManyAliases => "repetition limit exceeded"
  | .badLayout => "did not find expected node content"

end Fault

/-- What a part of a YAML text says that it is to be read as: one of the kinds
of scalars, something else that YAML knows, or an alternative of a choice. -/
inductive Label where
  | null
  | bool
  | integer
  | float
  | other
  | own (name : String)
  deriving DecidableEq

/-- A text as it was read. -/
inductive Source where
  | null
  | bool (value : Bool)
  | number (value : Number)
  | nonFinite
  | string (value : String)
  | plain (text : String)
  | literal (text : String)
  | list (items : List Source) (stop : Option Fault)
  | sequence (items : List Source)
  | record (entries : List (Source × Source)) (stop : Option Fault)
  | mapping (entries : List (Source × Source))
  | labelled (label : Label) (content : Source)
  | unusable (fault : Fault) (content : Source)
  | broken (fault : Fault)

/-! ## The tree of a value -/

mutual

/-- The tree that a value would be read as. -/
def Json.toSource : Json → Source
  | .null => .null
  | .bool b => .bool b
  | .number n => .number n
  | .string s => .string s
  | .array items => .list (toSourceItems items) none
  | .object fields => .record (toSourceFields fields) none

/-- The trees of the items of an array. -/
def Json.toSourceItems : List Json → List Source
  | [] => []
  | item :: rest => item.toSource :: toSourceItems rest

/-- The trees of the entries of an object. -/
def Json.toSourceFields : List (String × Json) → List (Source × Source)
  | [] => []
  | (key, value) :: rest => (.string key, value.toSource) :: toSourceFields rest

end

/-! ## Skipping -/

namespace Source

mutual

/-- The fault that is met when a part of a text is skipped: it need only be well
formed. -/
def skipFault? : Source → Option Fault
  | .broken fault => some fault
  | .unusable _ content | .labelled _ content => content.skipFault?
  | .list items stop => (skipFaultOfItems? items).or stop
  | .sequence items => skipFaultOfItems? items
  | .record entries stop => (skipFaultOfEntries? entries).or stop
  | .mapping entries => skipFaultOfEntries? entries
  | .null | .bool _ | .number _ | .nonFinite | .string _ | .plain _
  | .literal _ => none

/-- The first fault met when a list of parts is skipped. -/
def skipFaultOfItems? : List Source → Option Fault
  | [] => none
  | item :: rest => item.skipFault?.or (skipFaultOfItems? rest)

/-- The first fault met when the entries of a record are skipped. -/
def skipFaultOfEntries? : List (Source × Source) → Option Fault
  | [] => none
  | (_, value) :: rest => value.skipFault?.or (skipFaultOfEntries? rest)

end

/-! ## Scalars -/

/-- The text of a scalar that is not labelled. -/
def text? : Source → Option String
  | .string s | .plain s | .literal s => some s
  | _ => none

/-- The text of a scalar that may spell a value of a kind: one without quotes,
or a block that is labelled as that kind. -/
def spellingOf? (kind : Label) : Source → Option String
  | .plain s | .labelled _ (.plain s) => some s
  | .labelled label (.literal s) => if label = kind then some s else none
  | _ => none

end Source

end IntentGraph
