import IntentGraph.Text

/-!
# Filter keys

Filter state lives under keys of the form `filters.<name>`. `Key.filterAlias?`
recognizes the ad-hoc spellings of such a key, with the word "filter" before or
after the name, and gives the key that is meant.
-/

namespace IntentGraph.Key

/-- The namespace of filter state. -/
def filterNamespace : String := "filters"

/-- A text with its first letter in lower case. -/
def lowerFirst : List Char → List Char
  | [] => []
  | c :: rest => c.toLower :: rest

/-- The separators between the word "filter" and a name. -/
def isAliasSeparator (c : Char) : Bool := c = '_' || c = '-'

/-- The name in a key with "filter" before it: after a separator any name, or a
capitalized name directly. -/
def nameAfterFilter? : List Char → Option (List Char)
  | [] => none
  | f :: rest => do
    if f ≠ 'f' ∧ f ≠ 'F' then none
    let after ← ['i', 'l', 't', 'e', 'r'].isPrefixOf? rest
    match after with
    | [] => none
    | c :: name =>
      if isAliasSeparator c then
        if (name.head?.map Char.isAlpha).getD false && name.all Char.isAlphanum
          then some name
        else none
      -- directly before a name the word has to be in lower case
      else if f = 'f' && c.isUpper && name.all Char.isAlphanum then
        some (c :: name)
      else none

/-- Whether a text is a name that starts with a small letter. -/
def isLowerName (cs : List Char) : Bool :=
  (cs.head?.map Char.isLower).getD false && cs.all Char.isAlphanum

/-- The endings that mark a filter key, separated ones first. -/
def filterEndings : List (List Char) :=
  ["_filter".toList, "_Filter".toList, "-filter".toList, "-Filter".toList,
    "Filter".toList]

/-- The name in a key with "filter" after it. -/
def nameBeforeFilter? (cs : List Char) : Option (List Char) :=
  filterEndings.findSome? fun ending =>
    (ending.isSuffixOf? cs).filter isLowerName

/-- The filter key that an ad-hoc spelling means, or nothing when the key is no
such spelling. A key with a dot never is. -/
def filterAlias? (key : String) : Option String :=
  let cs := key.toList
  if cs.contains '.' then none
  else ((nameAfterFilter? cs).or (nameBeforeFilter? cs)).map fun name =>
    filterNamespace ++ "." ++ String.ofList (lowerFirst name)

/-- Whether a key lies in the namespace of filter state. -/
def isFilterKey (key : String) : Bool :=
  match filterNamespace.toList.isPrefixOf? key.toList with
  | some ('.' :: _ :: _) => true
  | _ => false

end IntentGraph.Key
