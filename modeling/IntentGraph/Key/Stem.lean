import IntentGraph.Key.FilterAlias
import IntentGraph.Text

/-!
# Naming of derived keys

Two conventions on the names of state keys: the stem that a data key and a
differently spelled status key have in common, and the name of the key that raw
data is normalized into.
-/

namespace IntentGraph.Key

/-- The endings that a stem does not have; the first that fits is removed. -/
def stemEndings : List (List Char) :=
  ["Status", "Normalized", "Results", "Result", "Response", "Items", "List",
    "Data", "Raw"].map String.toList

/-- The beginnings that a stem does not have when a capital letter follows. -/
def stemBeginnings : List (List Char) :=
  ["raw", "fetch", "load"].map String.toList

/-- Whether a text starts with a capital letter of the ASCII alphabet. -/
def startsUpper (cs : List Char) : Bool :=
  (cs.head?.map Char.isUpper).getD false

/-- A text without the underscores at either end. -/
def trimUnderscores (cs : List Char) : List Char :=
  ((cs.dropWhile (· = '_')).reverse.dropWhile (· = '_')).reverse

/-- The stem of a key: its last segment in lower case, without the usual affixes
of data keys. -/
def stem (key : String) : String :=
  let last := (Text.splitLast '.' key.toList).2
  let core := (stemEndings.findSome? fun ending =>
    (ending.isSuffixOf? last).filter (!·.isEmpty)).getD last
  let core := (stemBeginnings.findSome? fun start =>
    (start.isPrefixOf? core).filter startsUpper).getD core
  String.ofList (Text.lowercase (trimUnderscores core))

/-- The key that raw data at a key is normalized into: the key without its mark
of being raw, or else with a mark of being normalized. -/
def derived (key : String) : String :=
  let cs := key.toList
  let unmarked := ("Raw".toList.isSuffixOf? cs).filter fun rest =>
    !rest.isEmpty && rest.getLast? != some '.'
  match unmarked with
  | some rest => String.ofList rest
  | none =>
    let (space, last) := Text.splitLast '.' cs
    match ("raw".toList.isPrefixOf? last).filter startsUpper with
    | some rest =>
      let name := lowerFirst rest
      match space with
      | some space => String.ofList (space ++ '.' :: name)
      | none => String.ofList name
    | none => key ++ "Normalized"

end IntentGraph.Key
