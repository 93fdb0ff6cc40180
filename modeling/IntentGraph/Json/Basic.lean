import IntentGraph.Number.Binary64

/-!
# JSON

The values that open maps, literals and unrecognized payloads hold, the keyed
collections (`Fields`) that objects are made of, and the entries in which
structures are encoded.

A collection that was read from text ascends by key and holds each key once;
`Fields.insert` keeps it so. The order is no part of the type, since a
collection lies inside the inductive type of values. The lookups below do not
depend on it: they see the first entry of a key, and removal takes every entry
away.
-/

namespace IntentGraph

/-- A number: an integer of at most 64 bits, or a double-precision number. -/
inductive Number where
  | integer (value : Int)
  | double (value : Binary64)
  deriving DecidableEq

/-- A JSON value. -/
inductive Json where
  | null
  | bool (value : Bool)
  | number (value : Number)
  | string (value : String)
  | array (items : List Json)
  | object (fields : List (String × Json))

/-- The entries of an object or of an open map. -/
abbrev Fields := List (String × Json)

/-! ## Equality -/

mutual

/-- Decides whether two values are the same. -/
def Json.decEq : (a b : Json) → Decidable (a = b)
  | .null, .null => isTrue rfl
  | .bool a, .bool b =>
    if h : a = b then isTrue (h ▸ rfl) else isFalse fun e => h (by cases e; rfl)
  | .number a, .number b =>
    if h : a = b then isTrue (h ▸ rfl) else isFalse fun e => h (by cases e; rfl)
  | .string a, .string b =>
    if h : a = b then isTrue (h ▸ rfl) else isFalse fun e => h (by cases e; rfl)
  | .array a, .array b =>
    match decEqItems a b with
    | isTrue h => isTrue (h ▸ rfl)
    | isFalse h => isFalse fun e => h (by cases e; rfl)
  | .object a, .object b =>
    match decEqFields a b with
    | isTrue h => isTrue (h ▸ rfl)
    | isFalse h => isFalse fun e => h (by cases e; rfl)
  | .null, .bool _ | .null, .number _ | .null, .string _ | .null, .array _
  | .null, .object _
  | .bool _, .null | .bool _, .number _ | .bool _, .string _ | .bool _, .array _
  | .bool _, .object _
  | .number _, .null | .number _, .bool _ | .number _, .string _
  | .number _, .array _ | .number _, .object _
  | .string _, .null | .string _, .bool _ | .string _, .number _
  | .string _, .array _ | .string _, .object _
  | .array _, .null | .array _, .bool _ | .array _, .number _
  | .array _, .string _ | .array _, .object _
  | .object _, .null | .object _, .bool _ | .object _, .number _
  | .object _, .string _ | .object _, .array _ => isFalse fun e => by cases e

/-- Decides whether two lists of values are the same. -/
def Json.decEqItems : (a b : List Json) → Decidable (a = b)
  | [], [] => isTrue rfl
  | [], _ :: _ => isFalse fun e => by cases e
  | _ :: _, [] => isFalse fun e => by cases e
  | x :: xs, y :: ys =>
    match Json.decEq x y with
    | isTrue h =>
      match decEqItems xs ys with
      | isTrue t => isTrue (h ▸ t ▸ rfl)
      | isFalse t => isFalse fun e => t (by cases e; rfl)
    | isFalse h => isFalse fun e => h (by cases e; rfl)

/-- Decides whether two collections are the same, order included. -/
def Json.decEqFields : (a b : List (String × Json)) → Decidable (a = b)
  | [], [] => isTrue rfl
  | [], _ :: _ => isFalse fun e => by cases e
  | _ :: _, [] => isFalse fun e => by cases e
  | (k, x) :: xs, (l, y) :: ys =>
    if hk : k = l then
      match Json.decEq x y with
      | isTrue h =>
        match decEqFields xs ys with
        | isTrue t => isTrue (hk ▸ h ▸ t ▸ rfl)
        | isFalse t => isFalse fun e => t (by cases e; rfl)
      | isFalse h => isFalse fun e => h (by cases e; rfl)
    else isFalse fun e => hk (by cases e; rfl)

end

instance : DecidableEq Json := Json.decEq

/-! ## Keyed collections -/

namespace Fields

/-- The value at a key. -/
def get? (fields : Fields) (key : String) : Option Json := fields.lookup key

/-- Whether a key has a value. -/
def contains (fields : Fields) (key : String) : Bool := fields.any (·.1 == key)

/-- The keys, in order. -/
def keys (fields : Fields) : List String := fields.map (·.1)

/-- The values, in the order of their keys. -/
def values (fields : Fields) : List Json := fields.map (·.2)

/-- The collection with the value at a key set, the key standing at its place in
ascending order. -/
def insert (key : String) (value : Json) : Fields → Fields
  | [] => [(key, value)]
  | (k, v) :: rest =>
    if key < k then (key, value) :: (k, v) :: rest
    else if key = k then (key, value) :: rest
    else (k, v) :: insert key value rest

/-- The collection without a key. -/
def erase (fields : Fields) (key : String) : Fields :=
  fields.filter (·.1 != key)

/-- The collection of the given entries, the last of each key counting. -/
def ofList (entries : List (String × Json)) : Fields :=
  entries.foldl (fun fields (key, value) => insert key value fields) []

/-- The collection with every value changed by a function of its key and
itself. -/
def mapValues (f : String → Json → Json) (fields : Fields) : Fields :=
  fields.map fun (key, value) => (key, f key value)

end Fields

/-! ## Views of a value -/

namespace Json

/-- The text of a string. -/
def asString? : Json → Option String
  | .string s => some s
  | _ => none

/-- The truth value of a boolean. -/
def asBool? : Json → Option Bool
  | .bool b => some b
  | _ => none

/-- The items of an array. -/
def asArray? : Json → Option (List Json)
  | .array items => some items
  | _ => none

/-- The value at a key of an object. -/
def get? : Json → String → Option Json
  | .object fields, key => Fields.get? fields key
  | _, _ => none

/-- The object of the entries that are present. -/
def record (entries : List (Option (String × Json))) : Json :=
  .object (entries.filterMap id)

/-! ## Strings inside a value -/

mutual

/-- Every string inside a value, keys excepted, from left to right. -/
def strings : Json → List String
  | .string s => [s]
  | .array items => stringsOfItems items
  | .object fields => stringsOfFields fields
  | .null | .bool _ | .number _ => []

/-- Every string inside the values of a list. -/
def stringsOfItems : List Json → List String
  | [] => []
  | item :: rest => strings item ++ stringsOfItems rest

/-- Every string inside the values of a collection. -/
def stringsOfFields : List (String × Json) → List String
  | [] => []
  | (_, value) :: rest => strings value ++ stringsOfFields rest

end

mutual

/-- The value with every string inside it changed, keys excepted. -/
def mapStrings (f : String → String) : Json → Json
  | .string s => .string (f s)
  | .array items => .array (mapStringsOfItems f items)
  | .object fields => .object (mapStringsOfFields f fields)
  | .null => .null
  | .bool b => .bool b
  | .number n => .number n

/-- The list with every string inside its values changed. -/
def mapStringsOfItems (f : String → String) : List Json → List Json
  | [] => []
  | item :: rest => mapStrings f item :: mapStringsOfItems f rest

/-- The collection with every string inside its values changed. -/
def mapStringsOfFields (f : String → String) : List (String × Json) →
    List (String × Json)
  | [] => []
  | (key, value) :: rest =>
    (key, mapStrings f value) :: mapStringsOfFields f rest

end

/-! ## Ascending keys -/

mutual

/-- The value with the entries of every object in ascending order of their
keys. -/
def sortKeys : Json → Json
  | .array items => .array (sortKeysOfItems items)
  | .object fields => .object (sortKeysOfFields fields)
  | .null => .null
  | .bool b => .bool b
  | .number n => .number n
  | .string s => .string s

/-- The list with the entries of every object inside it in ascending order. -/
def sortKeysOfItems : List Json → List Json
  | [] => []
  | item :: rest => sortKeys item :: sortKeysOfItems rest

/-- The collection in ascending order, and so every object inside it. -/
def sortKeysOfFields : List (String × Json) → List (String × Json)
  | [] => []
  | (key, value) :: rest =>
    Fields.insert key (sortKeys value) (sortKeysOfFields rest)

end

end Json

/-!
## Entries of encoded structures

A structure is encoded as the object of its entries in the order of declaration.
Some entries are left out when they hold nothing; the functions below say which.
-/

namespace Json

/-- The array of the encodings of a list. -/
def ofList {α : Type} (encode : α → Json) (xs : List α) : Json :=
  .array (xs.map encode)

/-- The array of a list of texts. -/
def ofStrings (xs : List String) : Json := .array (xs.map .string)

/-- The encoding of a value that may be missing, null when it is. -/
def ofOption {α : Type} (encode : α → Json) (x : Option α) : Json :=
  (x.map encode).getD .null

/-- A natural number. -/
def ofNat (n : Nat) : Json := .number (.integer n)

end Json

namespace Entry

/-- An entry that is always written. -/
def always (name : String) (value : Json) : Option (String × Json) :=
  some (name, value)

/-- An entry for a text that may be missing, left out when it is. -/
def text? (name : String) (value : Option String) : Option (String × Json) :=
  value.map fun s => (name, .string s)

/-- An entry for a value that may be missing, left out when it is. -/
def present {α : Type} (name : String) (encode : α → Json) (value : Option α) :
    Option (String × Json) :=
  value.map fun x => (name, encode x)

/-- An entry for a flag, left out when it is off. -/
def flag (name : String) (value : Bool) : Option (String × Json) :=
  if value then some (name, .bool true) else none

/-- An entry for a list, left out when it is empty. -/
def list {α : Type} (name : String) (encode : α → Json) (xs : List α) :
    Option (String × Json) :=
  if xs.isEmpty then none else some (name, .ofList encode xs)

/-- An entry for an open map, left out when it is empty. -/
def fields (name : String) (value : Fields) : Option (String × Json) :=
  if value.isEmpty then none else some (name, .object value)

end Entry

end IntentGraph
