import IntentGraph.Wire.Source
import IntentGraph.Yaml.Node
import IntentGraph.Yaml.Token.Lexer

/-!
# Reading YAML

`Yaml.read` gives the source tree of a text that holds one document at most; the
empty text is an empty plain scalar. The tree has no aliases: each is replaced
by what it stands for. Where that would go on without end, or would take more
aliases than the size of the document allows, a part without value stands in the
tree, which is harmless unless it is asked for.
-/

namespace IntentGraph.Yaml

/-! ## Tags and scalars -/

/-- What a tag says that a node is to be read as. -/
def labelOf (tag : String) : Label :=
  match tag.toList with
  | ['!'] => .own tag
  | '!' :: name => .own (String.ofList name)
  | _ =>
    (([("null", Label.null), ("bool", .bool), ("int", .integer),
      ("float", .float)].map fun (name, label) =>
        (standardTag ++ name, label)).lookup tag).getD .other

/-- A part under the label of its tag, if it has one. -/
def labelled (tag : Option String) (content : Source) : Source :=
  match tag with
  | some tag => .labelled (labelOf tag) content
  | none => content

/-- The part that a scalar is. -/
def scalarPart (form : ScalarForm) (text : String) : Source :=
  match form with
  | .plain => .plain text
  | .literal => .literal text
  | .quoted | .folded => .string text

/-! ## Aliases -/

/-- How deep lists and mappings may nest. -/
def nestingLimit : Nat := 128

/-- How many aliases may be followed for every part of a document. -/
def aliasesPerPart : Nat := 100

namespace Node

mutual

/-- The number of the parts of a document; a list or mapping has a start and an
end. -/
def size : Node → Nat
  | .scalar _ _ _ | .alias _ => 1
  | .list _ items => sizeOfItems items + 2
  | .mapping _ entries => sizeOfEntries entries + 2
  | .anchored _ content => content.size

/-- The number of the parts of items. -/
def sizeOfItems : List Node → Nat
  | [] => 0
  | item :: rest => item.size + sizeOfItems rest

/-- The number of the parts of entries. -/
def sizeOfEntries : List (Node × Node) → Nat
  | [] => 0
  | (key, value) :: rest => key.size + value.size + sizeOfEntries rest

end

mutual

/-- The anchored nodes by their numbers, in text order. -/
def anchors : Node → List (Nat × Node)
  | .scalar _ _ _ | .alias _ => []
  | .list _ items => anchorsOfItems items
  | .mapping _ entries => anchorsOfEntries entries
  | .anchored number content => (number, content) :: content.anchors

/-- The anchored nodes in items. -/
def anchorsOfItems : List Node → List (Nat × Node)
  | [] => []
  | item :: rest => item.anchors ++ anchorsOfItems rest

/-- The anchored nodes in entries. -/
def anchorsOfEntries : List (Node × Node) → List (Nat × Node)
  | [] => []
  | (key, value) :: rest =>
    key.anchors ++ value.anchors ++ anchorsOfEntries rest

end

/-- What a node stands for, if there are aliases left to follow. -/
def target? (anchored : List (Nat × Node)) : Node → StateM Nat (Option Node)
  | .alias number => do
    let left ← get
    set (left - 1)
    return if left = 0 then none else anchored.lookup number
  | .anchored _ content => return some content
  | node => return some node

/-- The source tree of a node, where `depth` more lists and mappings may nest.
The state is the number of aliases that may still be followed. -/
def toSource (anchored : List (Nat × Node)) : (depth : Nat) → Node →
    StateM Nat Source
  | 0, node => do
    match ← node.target? anchored with
    | some (.scalar tag form text) => return labelled tag (scalarPart form text)
    | some _ => return .unusable .tooDeep .null
    | none => return .unusable .tooManyAliases .null
  | depth + 1, node => do
    match ← node.target? anchored with
    | some (.scalar tag form text) => return labelled tag (scalarPart form text)
    | some (.list tag items) =>
      return labelled tag (.sequence (← items.mapM (toSource anchored depth)))
    | some (.mapping tag entries) =>
      return labelled tag (.mapping (← entries.mapM fun (key, value) => do
        let key ← toSource anchored depth key
        return (key, ← toSource anchored depth value)))
    | some _ | none => return .unusable .tooManyAliases .null

/-- The source tree of a document. Of two nodes with one number the later
counts. -/
def tree (root : Node) : Source :=
  ((root.toSource root.anchors.reverse nestingLimit).run
    (aliasesPerPart * root.size)).run.1

end Node

/-! ## Texts -/

/-- The source tree of a text, if it is well formed. -/
def read? (text : String) : Option Source := do
  let tokens ← Token.ofText? text
  let root ← Node.ofTokens? tokens
  return root.tree

/-- The source tree of a text. -/
def read (text : String) : Source := (read? text).getD (.broken .badLayout)

end IntentGraph.Yaml
