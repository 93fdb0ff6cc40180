import IntentGraph.Document.Mutation
import IntentGraph.Json.Basic
import IntentGraph.Wire.Decoder

/-!
# Intent documents

What is compiled, and the execution graph that it holds once it is.
-/

namespace IntentGraph

/-!
## Execution graphs

What a runtime walks: a node for every action and one root, and edges from what
runs to what runs next.
-/

/-- What a runtime does at a node. -/
inductive NodeType where
  | integrationCall
  | transform
  | condition
  | emitEvent
  deriving DecidableEq

namespace NodeType

/-- The name of a node type. -/
def name : NodeType → String
  | .integrationCall => "integration_call"
  | .transform => "transform"
  | .condition => "condition"
  | .emitEvent => "emit_event"

/-- The node types by name. -/
def variants : List (String × NodeType) :=
  [NodeType.integrationCall, .transform, .condition, .emitEvent].map
    fun t => (t.name, t)

/-- Reads a node type. -/
def decode : Decoder NodeType := decodeVariant variants

end NodeType

/-- A node of an execution graph. -/
structure ExecutionNode where
  id : String
  nodeType : NodeType
  params : Fields
  deriving DecidableEq

namespace ExecutionNode

/-- Reads a node. -/
def decode : Decoder ExecutionNode :=
  decodeRecord "ExecutionNode" ⟨"", .transform, []⟩ [
  .required "id" decodeString fun id n => { n with id },
  .required "type" NodeType.decode fun nodeType n => { n with nodeType },
  .defaulted "params" decodeFields fun params n => { n with params }]

/-- Writes a node. -/
def encode (n : ExecutionNode) : Json := .record [
  Entry.always "id" (.string n.id),
  Entry.always "type" (.string n.nodeType.name),
  Entry.fields "params" n.params]

end ExecutionNode

/-- An edge of an execution graph, between ids of nodes. -/
structure Edge where
  source : String
  target : String
  deriving DecidableEq

namespace Edge

/-- Reads an edge. -/
def decode : Decoder Edge := decodeRecord "Edge" ⟨"", ""⟩ [
  .required "from" decodeString fun source e => { e with source },
  .required "to" decodeString fun target e => { e with target }]

/-- Writes an edge. -/
def encode (e : Edge) : Json :=
  .object [("from", .string e.source), ("to", .string e.target)]

end Edge

/-- What a runtime walks. -/
structure ExecutionGraph where
  nodes : List ExecutionNode
  edges : List Edge
  deriving DecidableEq

namespace ExecutionGraph

/-- The id of the root. -/
def rootId : String := "__init__"

/-- The graph without nodes. -/
def empty : ExecutionGraph := ⟨[], []⟩

/-- The targets of the edges that leave an id, in order. -/
def successors (g : ExecutionGraph) (id : String) : List String :=
  (g.edges.filter (·.source == id)).map (·.target)

/-- Reads a graph. -/
def decode : Decoder ExecutionGraph := decodeRecord "ExecutionGraph" empty [
  .required "nodes" (decodeList ExecutionNode.decode) fun nodes g =>
    { g with nodes },
  .required "edges" (decodeList Edge.decode) fun edges g => { g with edges }]

/-- Writes a graph. -/
def encode (g : ExecutionGraph) : Json :=
  .object [("nodes", .ofList ExecutionNode.encode g.nodes),
    ("edges", .ofList Edge.encode g.edges)]

end ExecutionGraph

/-!
## Intent documents

What is compiled: the type of an intent, a mutation, the snapshot it applies to
if there is one, and, once compiled, the execution graph.
-/

/-- What an intent is about. -/
inductive IntentType where
  | create
  | modify
  | chat
  | analyze
  deriving DecidableEq

namespace IntentType

/-- The name of a type. -/
def name : IntentType → String
  | .create => "create"
  | .modify => "modify"
  | .chat => "chat"
  | .analyze => "analyze"

/-- The types by name. -/
def variants : List (String × IntentType) :=
  [IntentType.create, .modify, .chat, .analyze].map fun t => (t.name, t)

/-- Reads a type. -/
def decode : Decoder IntentType := decodeVariant variants

end IntentType

/-- What is compiled. -/
structure IntentDocument where
  intentType : IntentType
  mutation : Mutation
  prior : Option Snapshot
  executionGraph : Option ExecutionGraph
  deriving DecidableEq

namespace IntentDocument

/-- A document without prior that changes nothing. -/
def empty (intentType : IntentType) : IntentDocument :=
  ⟨intentType, .empty, none, none⟩

/-- The fields of a document. -/
def fields : List (Field IntentDocument) := [
  .required "intent_type" IntentType.decode fun intentType d =>
    { d with intentType },
  .defaulted "mutation" Mutation.decode fun mutation d => { d with mutation },
  .defaulted "prior" (decodeOption Snapshot.decode) fun prior d =>
    { d with prior },
  .defaulted "executionGraph" (decodeOption ExecutionGraph.decode)
  fun executionGraph d => { d with executionGraph }]

/-- Reads a document. -/
def decode : Decoder IntentDocument :=
  decodeRecord "IntentDocument" (empty .create) fields

/-- Writes a document. -/
def encode (d : IntentDocument) : Json := .record [
  Entry.always "intent_type" (.string d.intentType.name),
  Entry.always "mutation" d.mutation.encode,
  Entry.present "prior" Snapshot.encode d.prior,
  Entry.present "executionGraph" ExecutionGraph.encode d.executionGraph]

end IntentDocument

end IntentGraph
