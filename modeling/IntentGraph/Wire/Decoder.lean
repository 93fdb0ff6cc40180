import IntentGraph.Wire.DecodeError
import IntentGraph.Wire.PlainScalar

/-!
# Decoders

A decoder turns a source tree into a value of a type, or says why not. Trees are
walked in text order, so the cause that is reported is the first one in the
text.

* The basic decoders read texts, truth values, naturals, lists and open maps.
* `decodeRecord` reads a structure from a record, whose entries may come in any
  order, or from the list of its fields.
* `decodeVariant` reads one of a closed set of names.
* `decodeTagged` reads a choice that is told by its `type` entry; whatever fits
  no alternative is kept as the value it is.
-/

namespace IntentGraph

/-- The outcome of decoding. -/
abbrev Decoded (α : Type) := Except DecodeError α

/-- A way to turn a source tree into a value. -/
abbrev Decoder (α : Type) := Source → Decoded α

namespace Source

/-- The refusal of a tree where something else was expected. A part without
value is refused for that reason first. -/
def refusal (expected : String) : Source → DecodeError
  | .null => .invalidType .null expected
  | .bool b => .invalidType (.bool b) expected
  | .number n => .invalidType (.number n) expected
  | .nonFinite => .invalidType .nonFinite expected
  | .string s | .plain s | .literal s => .invalidType (.string s) expected
  | .list _ _ | .sequence _ => .invalidType .list expected
  | .record _ _ | .mapping _ => .invalidType .record expected
  | .labelled _ content => content.refusal expected
  | .unusable fault _ => .malformed fault
  | .broken fault => .malformed fault

end Source

/-! ## Basic decoders -/

/-- Accepts a part that was closed, and refuses one that was not. -/
def closed (stop : Option Fault) : Decoded Unit :=
  match stop with
  | none => .ok ()
  | some fault => .error (.malformed fault)

/-- Reads a text. -/
def decodeString : Decoder String
  | .string s | .plain s | .literal s => .ok s
  | .labelled _ content => decodeString content
  | source => .error (source.refusal "a string")

/-- Reads a truth value. -/
def decodeBool : Decoder Bool
  | .bool b => .ok b
  | source =>
    match (source.spellingOf? .bool).bind PlainScalar.bool? with
    | some b => .ok b
    | none => .error (source.refusal "a boolean")

/-- Reads a natural number of a width given by its name and its number of
bits. -/
def decodeNatural (name : String) (bits : Nat) : Decoder Nat := fun source => do
  let n : Int ← match source with
    | .number (.integer n) => .ok n
    | source =>
      match (source.spellingOf? .integer).bind PlainScalar.unsigned? with
      | some n => .ok (n : Int)
      | none => .error (source.refusal name)
  if 0 ≤ n ∧ n < (Nat.pow 2 bits : Int) then .ok n.toNat
  else .error (.invalidValue (.number (.integer n)) name)

/-- Reads null as nothing, and all else with a decoder. -/
def decodeOption {α : Type} (decode : Decoder α) : Decoder (Option α)
  | .null => .ok none
  | .plain s =>
    if PlainScalar.isNull s then .ok none else (decode (.plain s)).map some
  | .labelled .null (.plain s) =>
    if PlainScalar.isNullWord s then .ok none
      else .error (.invalidValue (.string s) "null")
  | source => (decode source).map some

/-- Reads a list with a decoder for its items. -/
def decodeList {α : Type} (decode : Decoder α) : Decoder (List α)
  | .list items stop => do
    let values ← items.mapM decode
    closed stop
    return values
  | .sequence items => items.mapM decode
  | .plain "" => .ok []
  | .labelled _ content => decodeList decode content
  | source => .error (source.refusal "a sequence")

/-! ## Any value -/

/-- What a scalar spells under a label. -/
def spelledAs (label : Label) (s : String) : Decoded PlainScalar.Spelling :=
  match label with
  | .null =>
    if PlainScalar.isNullWord s then .ok .null
      else .error (.invalidValue (.string s) "null")
  | .bool =>
    match PlainScalar.bool? s with
    | some b => .ok (.bool b)
    | none => .error (.invalidValue (.string s) "a boolean")
  | .integer =>
    match PlainScalar.spelledInteger? s with
    | some spelling => .ok spelling
    | none => .error (.invalidValue (.string s) "an integer")
  | .float =>
    match PlainScalar.spelledDouble? s with
    | some spelling => .ok spelling
    | none => .error (.invalidValue (.string s) "a float")
  | .other => .ok .text
  | .own name => .error (.unknownVariant name [])

/-- The part that a spelling stands for. -/
def spelledPart (s : String) : PlainScalar.Spelling → Decoded Source
  | .null => .ok .null
  | .bool b => .ok (.bool b)
  | .integer n => .ok (.number (.integer n))
  | .wide => .error (.malformed .numberOutOfRange)
  | .double x => .ok (.number (.double x))
  | .nonFinite => .ok .nonFinite
  | .text => .ok (.string s)

/-- The leaf that a scalar is when it is asked for without a type, and nothing
for what is no scalar. No leaf is an alternative of a choice. -/
def Source.leaf? : Source → Option (Decoded Source)
  | .plain s => some (spelledPart s (PlainScalar.spelling s))
  | .literal s => some (.ok (.string s))
  | .labelled (.own name) _ => some (.error (.unknownVariant name []))
  | .labelled label content =>
    content.text?.map fun s => do spelledPart s (← spelledAs label s)
  | _ => none

/-- The value of a leaf. What is no finite number is null. -/
def Source.leafValue : Source → Json
  | .bool b => .bool b
  | .number n => .number n
  | .string s => .string s
  | _ => .null

mutual

/-- Reads any value. -/
def decodeJson : Decoder Json
  | .list items stop => do
    let values ← decodeJsonItems items
    closed stop
    return .array values
  | .sequence items => return .array (← decodeJsonItems items)
  | .record entries stop => do
    let fields ← decodeJsonEntries entries
    closed stop
    return .object (Fields.ofList fields)
  | .mapping entries =>
    return .object (Fields.ofList (← decodeJsonEntries entries))
  | .labelled label content =>
    match (Source.labelled label content).leaf? with
    | some leaf => return (← leaf).leafValue
    | none => decodeJson content
  | .plain s => return (← spelledPart s (PlainScalar.spelling s)).leafValue
  | .literal s => .ok (.string s)
  | .unusable fault _ => .error (.malformed fault)
  | .broken fault => .error (.malformed fault)
  | .null => .ok .null
  | .bool b => .ok (.bool b)
  | .number n => .ok (.number n)
  | .nonFinite => .ok .null
  | .string s => .ok (.string s)

/-- Reads the values of a list. -/
def decodeJsonItems : List Source → Decoded (List Json)
  | [] => .ok []
  | item :: rest => do
    let value ← decodeJson item
    let values ← decodeJsonItems rest
    return value :: values

/-- Reads the entries of a record, in text order. -/
def decodeJsonEntries : List (Source × Source) → Decoded (List (String × Json))
  | [] => .ok []
  | (key, source) :: rest => do
    let key ← decodeString key
    let value ← decodeJson source
    let entries ← decodeJsonEntries rest
    return (key, value) :: entries

end

/-- Reads an open map; the last entry of a key counts. -/
def decodeFields : Decoder Fields
  | .record entries stop => do
    let fields ← decodeJsonEntries entries
    closed stop
    return Fields.ofList fields
  | .mapping entries => return Fields.ofList (← decodeJsonEntries entries)
  | .plain "" => .ok []
  | .labelled _ content => decodeFields content
  | source => .error (source.refusal "a map")

/-! ## Structures -/

/-- Whether a field may be left out. -/
inductive Presence where
  /-- It may not. -/
  | required
  /-- It may, but only from a record. -/
  | optional
  /-- It may, from a record as from the end of a list. -/
  | defaulted
  deriving DecidableEq

/-- A field of a structure: its name and other spellings of it, and how its part
of the text is entered into a draft of the structure. -/
structure Field (α : Type) where
  name : String
  aliases : List String
  presence : Presence
  enter : Source → α → Decoded α

namespace Field

variable {α β : Type}

/-- A field that may not be left out. -/
def required (name : String) (decode : Decoder β) (set : β → α → α) : Field α :=
  ⟨name, [], .required, fun source draft => (decode source).map (set · draft)⟩

/-- A field that keeps the value of the draft when it is left out of a
record. -/
def optional (name : String) (decode : Decoder β) (set : β → α → α) : Field α :=
  ⟨name, [], .optional, fun source draft => (decode source).map (set · draft)⟩

/-- A field that keeps the value of the draft when it is left out. -/
def defaulted (name : String) (decode : Decoder β) (set : β → α → α) :
    Field α :=
  ⟨name, [], .defaulted, fun source draft => (decode source).map (set · draft)⟩

/-- The field with another spelling of its name. -/
def withAlias (spelling : String) (field : Field α) : Field α :=
  { field with aliases := spelling :: field.aliases }

/-- Whether a key is a spelling of the field's name. -/
def answersTo (field : Field α) (key : String) : Bool :=
  key == field.name || field.aliases.contains key

end Field

/-- The field that a key stands for: a text is its name, and a number its
place. -/
def fieldAt? {α : Type} (fields : List (Field α)) :
    Source → Decoded (Option (Field α))
  | .number (.integer n) =>
    if 0 ≤ n then .ok fields[n.toNat]?
    else .error (.invalidType (.number (.integer n)) "field identifier")
  | key => do
    let name ← decodeString key
    return fields.find? (·.answersTo name)

/-- Enters the entries of a record into a draft, and lists the names of the
fields met. A key that is no field is skipped. -/
def enterEntries {α : Type} (fields : List (Field α)) :
    List (Source × Source) → List String → α → Decoded (List String × α)
  | [], seen, draft => .ok (seen, draft)
  | (key, source) :: rest, seen, draft => do
    match ← fieldAt? fields key with
    | none =>
      closed source.skipFault?
      enterEntries fields rest seen draft
    | some field =>
      if seen.contains field.name then .error (.duplicateField field.name)
      else
        let draft ← field.enter source draft
        enterEntries fields rest (field.name :: seen) draft

/-- Enters the items of a list into a draft, field by field from the one at
`index` on. -/
def enterItems {α : Type} (shape : String) :
    (index : Nat) → List (Field α) → List Source → Option Fault → α → Decoded α
  | _, [], [], stop, draft => do
    closed stop
    return draft
  | _, [], _ :: _, _, _ => .error (.malformed .trailingCharacters)
  | index, field :: fields, item :: items, stop, draft => do
    let draft ← field.enter item draft
    enterItems shape (index + 1) fields items stop draft
  | index, field :: fields, [], stop, draft => do
    closed stop
    if field.presence = .defaulted then
      enterItems shape (index + 1) fields [] stop draft
    else .error (.invalidLength index shape)

/-- The wording of a structure that was expected as a list. -/
def listShape (name : String) (size : Nat) : String :=
  "struct " ++ name ++ " with " ++ toString size
    ++ (if size = 1 then " element" else " elements")

/-- Reads a structure from the entries of a record, starting from a draft. -/
def decodeEntries {α : Type} (blank : α) (fields : List (Field α))
    (entries : List (Source × Source)) (stop : Option Fault) : Decoded α := do
  let (seen, draft) ← enterEntries fields entries [] blank
  closed stop
  match fields.find? fun field =>
      field.presence = .required && !seen.contains field.name with
  | some field => .error (.missingField field.name)
  | none => .ok draft

/-- Reads a structure of a name from a record or from the list of its fields,
starting from a draft that holds the values of the fields that may be left
out. -/
def decodeRecord {α : Type} (name : String) (blank : α)
    (fields : List (Field α)) : Decoder α
  | .record entries stop => decodeEntries blank fields entries stop
  | .mapping entries => decodeEntries blank fields entries none
  | .list items stop =>
    enterItems (listShape name fields.length) 0 fields items stop blank
  | .plain "" => decodeEntries blank fields [] none
  | .labelled _ content => decodeRecord name blank fields content
  | source => .error (source.refusal ("struct " ++ name))

/-! ## Choices -/

/-- The alternative that a name stands for. -/
def lookupVariant {α : Type} (variants : List (String × α))
    (name : String) : Decoded α :=
  match variants.lookup name with
  | some value => .ok value
  | none => .error (.unknownVariant name (variants.map (·.1)))

/-- Accepts what stands for nothing beside the name of a variant. -/
def decodeUnit : Source → Decoded Unit
  | .null => .ok ()
  | .plain s =>
    if PlainScalar.isNull s then .ok ()
      else .error (.invalidType (.string s) "unit")
  | source => .error (source.refusal "unit")

/-- Reads one of a closed set of names. In JSON it may also be the only key of a
record whose value is null, in YAML a label on nothing. -/
def decodeVariant {α : Type} (variants : List (String × α)) : Decoder α
  | .string name | .plain name | .literal name => lookupVariant variants name
  | .labelled (.own name) content => do
    let value ← lookupVariant variants name
    decodeUnit content
    return value
  | .labelled _ content =>
    match content.text? with
    | some name => lookupVariant variants name
    | none => .error (.malformed .expectedValue)
  | .record ((.string name, source) :: rest) stop => do
    let value ← lookupVariant variants name
    decodeUnit source
    -- the name has to be the only key
    match rest, stop with
    | [], none => .ok value
    | [], some .endInObject => .error (.malformed .endInObject)
    | _, _ => .error (.malformed .expectedValue)
  | .record ((.unusable fault _, _) :: _) _ => .error (.malformed fault)
  | .record [] (some .endInObject) => .error (.malformed .endInObject)
  | .unusable fault _ => .error (.malformed fault)
  | .broken fault => .error (.malformed fault)
  | _ => .error (.malformed .expectedValue)

/-! ### Held parts

A choice that is told by its tag is decided only after all of it was read. What
is held in the meantime has lost its spelling: plain scalars are the leaves that
they spell, and keys that are neither texts nor naturals name nothing.
-/

/-- The place that a number names. One with a minus sign names none, not even
zero. -/
def Source.place? : Source → Option Nat
  | .number (.integer n) => if 0 ≤ n then some n.toNat else none
  | .plain s => PlainScalar.unsigned? s
  | .labelled .integer content => content.text?.bind PlainScalar.unsigned?
  | _ => none

/-- A key as it is held, from itself and the part that it is without its
spelling. -/
def Source.heldKey (key part : Source) : Source :=
  match part, key.place? with
  | .string s, _ => .string s
  | _, some n => .number (.integer n)
  | _, none => .null

mutual

/-- The part that is held of a tree: lists may stand for the fields of a
structure. -/
def Source.held : Source → Decoded Source
  | .list items stop => do
    let items ← heldItems items
    closed stop
    return .list items none
  | .sequence items => return .list (← heldItems items) none
  | .record entries stop => do
    let entries ← heldEntries entries
    closed stop
    return .record entries none
  | .mapping entries => return .record (← heldEntries entries) none
  | .labelled label content =>
    match (Source.labelled label content).leaf? with
    | some leaf => leaf
    | none => content.held
  | .plain s => spelledPart s (PlainScalar.spelling s)
  | .literal s => .ok (.string s)
  | .unusable fault _ => .error (.malformed fault)
  | .broken fault => .error (.malformed fault)
  | .null => .ok .null
  | .bool b => .ok (.bool b)
  | .number n => .ok (.number n)
  | .nonFinite => .ok .nonFinite
  | .string s => .ok (.string s)

/-- The parts that are held of a list of trees. -/
def Source.heldItems : List Source → Decoded (List Source)
  | [] => .ok []
  | item :: rest => do
    let item ← item.held
    let items ← heldItems rest
    return item :: items

/-- The parts that are held of the entries of a record. -/
def Source.heldEntries : List (Source × Source) →
    Decoded (List (Source × Source))
  | [] => .ok []
  | (key, source) :: rest => do
    let part ← key.held
    let value ← source.held
    let entries ← heldEntries rest
    return (key.heldKey part, value) :: entries

end

/-- The text that a part is without its spelling. -/
def Source.heldText? (source : Source) : Option String :=
  match source.held with
  | .ok (.string s) => some s
  | _ => none

/-- The items of a list. -/
def Source.items? : Source → Option (List Source)
  | .list items _ | .sequence items => some items
  | .labelled _ content => content.items?
  | _ => none

/-! ### Tagged choices -/

/-- An alternative of a tagged choice: the spellings of its tag and the decoder
of its fields. -/
structure Alternative (α : Type) where
  tags : List String
  decode : Decoder α

/-- The tag of a tree and what is left without it: the only `type` entry of a
record, or the first item of a list. -/
def Source.splitTag? : Source → Option (Source × Source)
  | .record entries _ | .mapping entries =>
    let isTag (entry : Source × Source) : Bool :=
      entry.1.heldText? == some "type"
    match entries.filter isTag with
    | [(_, tag)] =>
      some (tag, .record (entries.filter fun entry => !isTag entry) none)
    | _ => none
  | .list (tag :: rest) _ | .sequence (tag :: rest) =>
    some (tag, .list rest none)
  | .labelled _ content => content.splitTag?
  | _ => none

/-- The alternative that a tag names, by spelling or by position. -/
def alternative? {α : Type} (alternatives : List (Alternative α))
    (tag : Source) :
    Option (Alternative α) :=
  match tag.heldText? with
  | some name => alternatives.find? (·.tags.contains name)
  | none => tag.place?.bind fun n => alternatives[n]?

/-- The value of a tree under the alternative that its tag names. -/
def tagged? {α : Type} (alternatives : List (Alternative α)) (source : Source) :
    Option α := do
  let (tag, rest) ← source.splitTag?
  let alternative ← alternative? alternatives tag
  let fields ← rest.held.toOption
  (alternative.decode fields).toOption

/-- Reads a tagged choice. What fits no alternative is kept as the value it
is. -/
def decodeTagged {α : Type} (alternatives : List (Alternative α))
    (unknown : Json → α) :
    Decoder α := fun source => do
  let held ← source.held
  match tagged? alternatives source with
  | some x => return x
  | none => return unknown (← decodeJson held)

/-! ## Whole texts -/

/-- Decodes a text that was read, and refuses what follows the value. -/
def decodeReading {α : Type} (decode : Decoder α) (tree : Source)
    (trailing : Option Fault) :
    Decoded α := do
  let value ← decode tree
  closed trailing
  return value

end IntentGraph
