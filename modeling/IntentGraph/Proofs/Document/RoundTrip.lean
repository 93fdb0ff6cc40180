import IntentGraph.Configuration
import IntentGraph.Document.IntentDocument
import IntentGraph.Proofs.Document.Choices

/-!
# Decoding undoes encoding

Whatever is read from a value is read again, the same, from what it is written
as. For a structure this takes two lemmas: what is read has parts that are read
back (`Action.Readable` and its like, by `yields_record`), and a structure of
such parts is read back from its entries (by `reads_record`, one line for a
field). `decode_encode` gathers all types of documents, and of configurations.
-/

namespace IntentGraph

/-! ## Events and pages -/

theorem PageEvent.readBack (e : PageEvent) : ReadBack decode encode e := by
  show Reads decode (.record [Entry.always "kind" (.string e.kind),
    Entry.always "actionId" (.string e.actionId)]) e
  exact reads_record (by simp)
    (.always rfl (reads_string _) (.always rfl (reads_string _) .nil))

namespace Page

theorem readBack (p : Page) : ReadBack decode encode p :=
  reads_record (by simp [fields]) <|
    .always rfl (reads_string p.id) <|
    .text? rfl (by decide) rfl <|
    .text? rfl (by decide) rfl <|
    .list rfl (by decide) rfl (fun id _ => reads_string id) <|
    .list rfl (by decide) rfl (fun e _ => e.readBack) .nil

end Page

/-! ## Components -/

namespace ComponentEvent

theorem readBack {e : ComponentEvent}
    (hargs : Json.isSortedFields e.args = true) :
    ReadBack decode encode e :=
  reads_record (by simp [fields]) <|
    .always rfl (reads_string e.kind) <|
    .text? rfl (by decide) rfl <|
    .text? rfl (by decide) rfl <|
    .openMap rfl (by decide) rfl hargs .nil

theorem yields_readBack : Yields decode (ReadBack decode encode) := by
  refine (yields_record (P := fun e => Json.isSortedFields e.args = true)
    rfl ?_).imp fun e => readBack
  refine List.forall_mem_cons.2 ⟨?_, List.forall_mem_cons.2 ⟨?_,
    List.forall_mem_cons.2 ⟨?_, List.forall_mem_singleton.2 ?_⟩⟩⟩
  · exact .of_sets rfl (yields_true _) fun _ _ _ h => h
  · exact .of_sets rfl (yields_true _) fun _ _ _ h => h
  · exact .of_sets rfl (yields_true _) fun _ _ _ h => h
  · exact .of_sets rfl yields_fields fun _ _ h _ => h

end ComponentEvent

/-- The parts of a component are read back. -/
structure Component.Readable (c : Component) : Prop where
  kind : ReadBack ComponentKind.decode (.string ·.name) c.kind
  properties : Json.isSortedFields c.properties = true
  dataSource : ∀ source, c.dataSource = some source →
    source.encode ≠ .null ∧ ReadBack DataSource.decode DataSource.encode source
  events : ∀ e ∈ c.events,
    ReadBack ComponentEvent.decode ComponentEvent.encode e
  children : ∀ child ∈ c.children,
    ReadBack ChildRef.decode ChildRef.encode child

namespace Component

theorem Readable.readBack {c : Component} (h : c.Readable) :
    ReadBack decode encode c :=
  reads_record (by simp [fields]) <|
    .always rfl (reads_string c.id) <|
    .always rfl h.kind <|
    .openMap rfl (by decide) rfl h.properties <|
    .present rfl (by decide) rfl h.dataSource <|
    .list rfl (by decide) rfl h.events <|
    .list rfl (by decide) rfl h.children <|
    .text? rfl (by decide) rfl .nil

theorem yields_readBack : Yields decode (ReadBack decode encode) := by
  have hkind : ComponentKind.ofName "" = .unknown "" := by decide +kernel
  have hblank : Readable ⟨"", .unknown "", [], none, [], [], none⟩ := {
    kind := hkind ▸ ComponentKind.kindLookup.readBack ""
    properties := rfl
    dataSource := nofun
    events := List.forall_mem_nil _
    children := List.forall_mem_nil _ }
  refine (yields_record hblank ?_).imp fun _ => Readable.readBack
  simp only [fields, List.forall_mem_cons, List.not_mem_nil, false_imp_iff,
    implies_true, and_true]
  refine ⟨?_, ?_, ?_, ?_, ?_, ?_, ?_⟩
  · exact .of_sets rfl (yields_true _) fun _ _ _ h => { h with }
  · exact .of_sets rfl ComponentKind.kindLookup.yields_readBack
      fun _ _ kind h => { h with kind }
  · exact .of_sets rfl yields_fields fun _ _ properties h =>
      { h with properties }
  · refine .of_sets rfl (yields_option fun v hv hnull source hsource => ?_)
      fun _ _ dataSource h => { h with dataSource }
    exact DataSource.readBack_of_decode hv hnull hsource
  · exact .of_sets rfl (yields_list ComponentEvent.yields_readBack)
      fun _ _ events h => { h with events }
  · exact .of_sets rfl (yields_list ChildRef.yields_readBack)
      fun _ _ children h => { h with children }
  · exact .of_sets rfl (yields_true _) fun _ _ _ h => { h with }

end Component

/-! ## Actions -/

/-- The parts of an action are read back. -/
structure Action.Readable (a : Action) : Prop where
  kind : ReadBack ActionKind.decode (.string ·.name) a.kind
  config : Json.isSortedFields a.config = true
  steps : ∀ step ∈ a.steps, ReadBack Step.decode Step.encode step
  triggeredBy : ∀ t ∈ a.triggeredBy, ReadBack Trigger.decode Trigger.encode t

namespace Action

theorem Readable.readBack {a : Action} (h : a.Readable) :
    ReadBack decode encode a :=
  reads_record (by simp [fields]) <|
    .always rfl (reads_string a.id) <|
    .always rfl h.kind <|
    .openMap rfl (by decide) rfl h.config <|
    .list rfl (by decide) rfl h.steps <|
    .always rfl (Trigger.reads_many h.triggeredBy) <|
    .flag rfl (by decide) rfl <|
    .present rfl (by decide) rfl
      (fun keys _ => ⟨nofun, reads_list fun key _ => reads_string key⟩) .nil

theorem yields_readBack : Yields decode (ReadBack decode encode) := by
  have hkind : ActionKind.ofName "" = .unknown "" := by decide +kernel
  have hblank : Readable (bare "" (.unknown "")) := {
    kind := hkind ▸ ActionKind.kindLookup.readBack ""
    config := rfl
    steps := List.forall_mem_nil _
    triggeredBy := List.forall_mem_nil _ }
  refine (yields_record hblank ?_).imp fun _ => Readable.readBack
  simp only [fields, List.forall_mem_cons, List.not_mem_nil, false_imp_iff,
    implies_true, and_true]
  refine ⟨?_, ?_, ?_, ?_, ?_, ?_, ?_⟩
  · exact .of_sets rfl (yields_true _) fun _ _ _ h => { h with }
  · exact .of_sets rfl ActionKind.kindLookup.yields_readBack fun _ _ kind h =>
      { h with kind }
  · exact .of_sets rfl yields_fields fun _ _ config h => { h with config }
  · exact .of_sets rfl (yields_list Step.writtenChoice.yields_readBack)
      fun _ _ steps h => { h with steps }
  · exact .of_sets rfl
      (Trigger.yields_many Trigger.writtenChoice.yields_readBack)
      fun _ _ triggeredBy h => { h with triggeredBy }
  · exact .of_sets rfl (yields_true _) fun _ _ _ h => { h with }
  · exact .of_sets rfl (yields_true _) fun _ _ _ h => { h with }

end Action

/-! ## Mutations and snapshots -/

/-- The parts of a mutation are read back. -/
structure Mutation.Readable (m : Mutation) : Prop where
  componentsAdded :
    ∀ c ∈ m.componentsAdded, ReadBack Component.decode Component.encode c
  actionsAdded : ∀ a ∈ m.actionsAdded, ReadBack Action.decode Action.encode a
  stateAdded : Json.isSortedFields m.stateAdded = true
  componentsUpdated :
    ∀ c ∈ m.componentsUpdated, ReadBack Component.decode Component.encode c
  actionsUpdated :
    ∀ a ∈ m.actionsUpdated, ReadBack Action.decode Action.encode a
  stateUpdated : Json.isSortedFields m.stateUpdated = true
  containerPropsUpdated : Json.isSortedFields m.containerPropsUpdated = true

namespace Mutation

theorem Readable.readBack {m : Mutation} (h : m.Readable) :
    ReadBack decode encode m :=
  reads_record (by simp [fields]) <|
    .list rfl (by decide) rfl (fun p _ => p.readBack) <|
    .list rfl (by decide) rfl h.componentsAdded <|
    .list rfl (by decide) rfl h.actionsAdded <|
    .openMap rfl (by decide) rfl h.stateAdded <|
    .list rfl (by decide) rfl (fun p _ => p.readBack) <|
    .list rfl (by decide) rfl h.componentsUpdated <|
    .list rfl (by decide) rfl h.actionsUpdated <|
    .openMap rfl (by decide) rfl h.stateUpdated <|
    .openMap rfl (by decide) rfl h.containerPropsUpdated .nil

theorem readable_empty : Readable empty where
  componentsAdded := List.forall_mem_nil _
  actionsAdded := List.forall_mem_nil _
  stateAdded := rfl
  componentsUpdated := List.forall_mem_nil _
  actionsUpdated := List.forall_mem_nil _
  stateUpdated := rfl
  containerPropsUpdated := rfl

theorem yields_readBack : Yields decode (ReadBack decode encode) := by
  have hcomponents := yields_list Component.yields_readBack
  have hactions := yields_list Action.yields_readBack
  refine (yields_record readable_empty ?_).imp fun _ => Readable.readBack
  simp only [fields, List.forall_mem_cons, List.not_mem_nil, false_imp_iff,
    implies_true, and_true]
  refine ⟨?_, ?_, ?_, ?_, ?_, ?_, ?_, ?_, ?_⟩
  · exact .of_sets rfl (yields_true _) fun _ _ _ h => { h with }
  · exact .of_sets rfl hcomponents fun _ _ componentsAdded h =>
      { h with componentsAdded }
  · exact .of_sets rfl hactions fun _ _ actionsAdded h =>
      { h with actionsAdded }
  · exact .of_sets rfl yields_fields fun _ _ stateAdded h =>
      { h with stateAdded }
  · exact .of_sets rfl (yields_true _) fun _ _ _ h => { h with }
  · exact .of_sets rfl hcomponents fun _ _ componentsUpdated h =>
      { h with componentsUpdated }
  · exact .of_sets rfl hactions fun _ _ actionsUpdated h =>
      { h with actionsUpdated }
  · exact .of_sets rfl yields_fields fun _ _ stateUpdated h =>
      { h with stateUpdated }
  · exact .of_sets rfl yields_fields fun _ _ containerPropsUpdated h =>
      { h with containerPropsUpdated }

end Mutation

/-- The parts of a snapshot are read back. -/
structure Snapshot.Readable (s : Snapshot) : Prop where
  components : ∀ c ∈ s.components, ReadBack Component.decode Component.encode c
  actions : ∀ a ∈ s.actions, ReadBack Action.decode Action.encode a
  state : Json.isSortedFields s.state = true

namespace Snapshot

theorem Readable.readBack {s : Snapshot} (h : s.Readable) :
    ReadBack decode encode s :=
  reads_record (by simp [fields]) <|
    .list rfl (by decide) rfl (fun p _ => p.readBack) <|
    .list rfl (by decide) rfl h.components <|
    .list rfl (by decide) rfl h.actions <|
    .openMap rfl (by decide) rfl h.state .nil

theorem yields_readBack : Yields decode (ReadBack decode encode) := by
  have hblank : Readable empty :=
    ⟨List.forall_mem_nil _, List.forall_mem_nil _, rfl⟩
  refine (yields_record hblank ?_).imp fun _ => Readable.readBack
  simp only [fields, List.forall_mem_cons, List.not_mem_nil, false_imp_iff,
    implies_true, and_true]
  refine ⟨?_, ?_, ?_, ?_⟩
  · exact .of_sets rfl (yields_true _) fun _ _ _ h => { h with }
  · exact .of_sets rfl (yields_list Component.yields_readBack)
      fun _ _ components h => { h with components }
  · exact .of_sets rfl (yields_list Action.yields_readBack)
      fun _ _ actions h => { h with actions }
  · exact .of_sets rfl yields_fields fun _ _ state h => { h with state }

end Snapshot

/-! ## Execution graphs -/

theorem NodeType.reads_name (t : NodeType) : Reads decode (.string t.name) t :=
  reads_variant (by cases t <;> rfl)

namespace ExecutionNode

theorem readBack {n : ExecutionNode}
    (hparams : Json.isSortedFields n.params = true) :
    ReadBack decode encode n := by
  exact reads_record (by simp) <|
    .always rfl (reads_string n.id) <|
    .always rfl n.nodeType.reads_name <|
    .openMap rfl (by decide) rfl hparams .nil

theorem yields_readBack : Yields decode (ReadBack decode encode) := by
  refine (yields_record (P := fun n => Json.isSortedFields n.params = true)
    rfl ?_).imp fun n => readBack
  refine List.forall_mem_cons.2 ⟨?_,
    List.forall_mem_cons.2 ⟨?_, List.forall_mem_singleton.2 ?_⟩⟩
  · exact .of_sets rfl (yields_true _) fun _ _ _ h => h
  · exact .of_sets rfl (yields_true _) fun _ _ _ h => h
  · exact .of_sets rfl yields_fields fun _ _ h _ => h

end ExecutionNode

theorem Edge.readBack (e : Edge) : ReadBack decode encode e := by
  show Reads decode (.record [Entry.always "from" (.string e.source),
    Entry.always "to" (.string e.target)]) e
  exact reads_record (by simp)
    (.always rfl (reads_string _) (.always rfl (reads_string _) .nil))

namespace ExecutionGraph

theorem readBack {g : ExecutionGraph}
    (hnodes : ∀ n ∈ g.nodes,
      ReadBack ExecutionNode.decode ExecutionNode.encode n) :
    ReadBack decode encode g := by
  show Reads decode
    (.record [Entry.always "nodes" (.ofList ExecutionNode.encode g.nodes),
      Entry.always "edges" (.ofList Edge.encode g.edges)]) g
  exact reads_record (by simp) <|
    .always rfl (reads_list hnodes) <|
    .always rfl (reads_list fun e _ => e.readBack) .nil

theorem yields_readBack : Yields decode (ReadBack decode encode) := by
  refine (yields_record (P := fun g =>
    ∀ n ∈ g.nodes, ReadBack ExecutionNode.decode ExecutionNode.encode n)
      (List.forall_mem_nil _) ?_).imp fun g => readBack
  refine List.forall_mem_cons.2 ⟨?_, List.forall_mem_singleton.2 ?_⟩
  · exact .of_sets rfl (yields_list ExecutionNode.yields_readBack)
      fun _ _ h _ => h
  · exact .of_sets rfl (yields_true _) fun _ _ _ h => h

end ExecutionGraph

/-! ## Documents -/

theorem IntentType.reads_name (t : IntentType) :
    Reads decode (.string t.name) t :=
  reads_variant (by cases t <;> rfl)

/-- The parts of a document are read back. -/
structure IntentDocument.Readable (d : IntentDocument) : Prop where
  mutation : ReadBack Mutation.decode Mutation.encode d.mutation
  prior : ∀ s, d.prior = some s → ReadBack Snapshot.decode Snapshot.encode s
  executionGraph : ∀ g, d.executionGraph = some g →
    ReadBack ExecutionGraph.decode ExecutionGraph.encode g

namespace IntentDocument

theorem Readable.readBack {d : IntentDocument} (h : d.Readable) :
    ReadBack decode encode d :=
  reads_record (by simp [fields]) <|
    .always rfl d.intentType.reads_name <|
    .always rfl h.mutation <|
    .present rfl (by decide) rfl (fun s hs => ⟨nofun, h.prior s hs⟩) <|
    .present rfl (by decide) rfl
      (fun g hg => ⟨nofun, h.executionGraph g hg⟩) .nil

theorem yields_readBack : Yields decode (ReadBack decode encode) := by
  have hblank : Readable (empty .create) :=
    ⟨Mutation.readable_empty.readBack, nofun, nofun⟩
  have hprior : Yields (decodeOption Snapshot.decode) _ :=
    yields_option fun v hv _ => Snapshot.yields_readBack v hv
  have hgraph : Yields (decodeOption ExecutionGraph.decode) _ :=
    yields_option fun v hv _ => ExecutionGraph.yields_readBack v hv
  refine (yields_record hblank ?_).imp fun _ => Readable.readBack
  simp only [fields, List.forall_mem_cons, List.not_mem_nil, false_imp_iff,
    implies_true, and_true]
  refine ⟨?_, ?_, ?_, ?_⟩
  · exact .of_sets rfl (yields_true _) fun _ _ _ h => { h with }
  · exact .of_sets rfl Mutation.yields_readBack fun _ _ mutation h =>
      { h with mutation }
  · exact .of_sets rfl hprior fun _ _ prior h => { h with prior }
  · exact .of_sets rfl hgraph fun _ _ executionGraph h =>
      { h with executionGraph }

end IntentDocument

/-! ## Configurations -/

theorem Capability.readBack (c : Capability) : ReadBack decode encode c := by
  exact reads_record (by simp) <|
    .always rfl (reads_string c.id) <|
    .text? rfl (by decide) rfl <|
    .always rfl (reads_bool c.ephemeral) .nil

theorem NormalizeSettings.readBack (s : NormalizeSettings) :
    ReadBack decode encode s := by
  show Reads decode
    (.record [Entry.always "legacy_kinds" (.ofStrings s.legacyKinds),
      Entry.always "filter_sentinel" (.string s.filterSentinel)]) s
  exact reads_record (by simp) <|
    .always rfl (reads_list fun kind _ => reads_string kind) <|
    .always rfl (reads_string _) .nil

theorem RepairSettings.readBack (s : RepairSettings) :
    ReadBack decode encode s := by
  show Reads decode (.record [Entry.always "enabled" (.bool s.enabled),
    Entry.always "synthesize_normalizers" (.bool s.synthesizeNormalizers),
    Entry.always "synthesize_status_mirrors" (.bool s.synthesizeStatusMirrors),
    Entry.always "safety_net_reason" (.string s.safetyNetReason)]) s
  exact reads_record (by simp) <|
    .always rfl (reads_bool _) <|
    .always rfl (reads_bool _) <|
    .always rfl (reads_bool _) <|
    .always rfl (reads_string _) .nil

theorem SimulationSettings.readBack {s : SimulationSettings}
    (hbudget : s.stepBudget < Nat.pow 2 64) :
    ReadBack decode encode s := by
  show Reads decode
    (.record [Entry.always "step_budget" (.ofNat s.stepBudget)]) s
  exact reads_record (List.pairwise_singleton _ _)
    (.always rfl (reads_natural hbudget) .nil)

theorem SimulationSettings.yields_readBack :
    Yields decode (ReadBack decode encode) := by
  refine (yields_record (P := fun s => s.stepBudget < Nat.pow 2 64)
    (by decide) ?_).imp fun s => readBack
  exact List.forall_mem_singleton.2
    (.of_sets rfl (yields_natural _ _) fun _ _ hbudget _ => hbudget)

/-- The parts of a configuration are read back. -/
structure Configuration.Readable (c : Configuration) : Prop where
  version : c.version < Nat.pow 2 32
  simulation :
    ReadBack SimulationSettings.decode SimulationSettings.encode c.simulation

namespace Configuration

theorem Readable.readBack {c : Configuration} (h : c.Readable) :
    ReadBack decode encode c := by
  exact reads_record (by simp) <|
    .always rfl (reads_natural h.version) <|
    .always rfl c.normalize.readBack <|
    .always rfl c.repair.readBack <|
    .always rfl h.simulation <|
    .list rfl (by decide) rfl (fun capability _ => capability.readBack) <|
    .always rfl (reads_list fun start _ => reads_string start) .nil

theorem yields_readBack : Yields decode (ReadBack decode encode) := by
  have hblank : Readable default :=
    ⟨by decide, SimulationSettings.readBack (by decide)⟩
  refine (yields_record hblank ?_).imp fun _ => Readable.readBack
  simp only [List.forall_mem_cons, List.not_mem_nil, false_imp_iff,
    implies_true, and_true]
  refine ⟨?_, ?_, ?_, ?_, ?_, ?_⟩
  · exact .of_sets rfl (yields_natural _ _) fun _ _ version h =>
      { h with version }
  · exact .of_sets rfl (yields_true _) fun _ _ _ h => { h with }
  · exact .of_sets rfl (yields_true _) fun _ _ _ h => { h with }
  · exact .of_sets rfl SimulationSettings.yields_readBack
      fun _ _ simulation h => { h with simulation }
  · exact .of_sets rfl (yields_true _) fun _ _ _ h => { h with }
  · exact .of_sets rfl (yields_true _) fun _ _ _ h => { h with }

end Configuration

/-! ## All types -/

/-- What is read from a value is read again from what it is written as, be it in
the order of declaration or sorted. -/
def Undoes {α : Type} (decode : Decoder α) (encode : α → Json)
    (v : Json) : Prop :=
  ∀ x, decode v.toSource = .ok x →
    decode (encode x).toSource = .ok x
      ∧ decode (encode x).sortKeys.toSource = .ok x

theorem Yields.undoes {α : Type} {decode : Decoder α} {encode : α → Json}
    (h : Yields decode (ReadBack decode encode)) {v : Json}
    (hv : v.isSorted = true) :
    Undoes decode encode v :=
  fun x hx => ⟨h v hv x hx _ (.toSource _), h v hv x hx _ (.sorted _)⟩

/-- Decoding undoes encoding for every type of a document and for
configurations. A trigger, a step and a data source are read from any value, and
one that is not recognized is kept as it was. -/
theorem decode_encode (v : Json) (hv : v.isSorted = true) :
    Undoes IntentDocument.decode IntentDocument.encode v
      ∧ Undoes Mutation.decode Mutation.encode v
      ∧ Undoes Snapshot.decode Snapshot.encode v
      ∧ Undoes Action.decode Action.encode v
      ∧ Undoes Trigger.decode Trigger.encode v
      ∧ Undoes Step.decode Step.encode v
      ∧ Undoes Component.decode Component.encode v
      ∧ Undoes ComponentEvent.decode ComponentEvent.encode v
      ∧ Undoes DataSource.decode DataSource.encode v
      ∧ Undoes ChildRef.decode ChildRef.encode v
      ∧ Undoes Page.decode Page.encode v
      ∧ Undoes ExecutionGraph.decode ExecutionGraph.encode v
      ∧ Undoes Configuration.decode Configuration.encode v
      ∧ Tolerates Trigger.decode Trigger.encode .unknown v
      ∧ Tolerates Step.decode Step.encode .unknown v
      ∧ Tolerates DataSource.decode DataSource.encode .unknown v := by
  have hpages : Yields Page.decode (ReadBack Page.decode Page.encode) :=
    (yields_true _).imp fun p _ => p.readBack
  exact ⟨IntentDocument.yields_readBack.undoes hv,
    Mutation.yields_readBack.undoes hv, Snapshot.yields_readBack.undoes hv,
    Action.yields_readBack.undoes hv,
    Trigger.writtenChoice.yields_readBack.undoes hv,
    Step.writtenChoice.yields_readBack.undoes hv,
    Component.yields_readBack.undoes hv,
    ComponentEvent.yields_readBack.undoes hv,
    DataSource.writtenChoice.yields_readBack.undoes hv,
    ChildRef.yields_readBack.undoes hv, hpages.undoes hv,
    ExecutionGraph.yields_readBack.undoes hv,
    Configuration.yields_readBack.undoes hv, Trigger.writtenChoice.tolerates hv,
    Step.writtenChoice.tolerates hv, DataSource.writtenChoice.tolerates hv⟩

/-- An action in loose spelling: a step as a list, one told by its number, one
without its event, and a single trigger with another spelling of its tag. -/
def looseAction : Json := .object [
  ("id", .string "open_rows"), ("kind", .string "Workflow"),
  ("steps", .array [.array [.string "emit", .string "opened"],
    .object [("page", .string "rows"), ("type", .number (.integer 2))],
    .object [("name", .string "opened"), ("type", .string "emit")]]),
  ("triggeredBy",
    .object [("stateKey", .string "rows"), ("type", .string "stateChange")])]

/-- The loose action, as it is read. -/
def plainAction : Action :=
  { Action.bare "open_rows" .workflow with
    steps := [.emit "opened", .navigate "rows",
      .unknown (.object [("name", .string "opened"), ("type", .string "emit")])]
    triggeredBy := [.stateChange "rows"] }

/-- The loose action is written otherwise, and read as the same action again. -/
theorem decode_encode_looseAction :
    looseAction.isSorted = true
      ∧ Action.decode looseAction.toSource = .ok plainAction
      ∧ plainAction.encode.sortKeys ≠ looseAction
      ∧ Action.decode plainAction.encode.toSource = .ok plainAction
      ∧ Action.decode plainAction.encode.sortKeys.toSource
        = .ok plainAction := by
  have hsorted : looseAction.isSorted = true := by decide +kernel
  have hread : Action.decode looseAction.toSource = .ok plainAction := by
    decide +kernel
  obtain ⟨_, _, _, hactions, _⟩ := decode_encode looseAction hsorted
  exact ⟨hsorted, hread, by decide +kernel, hactions plainAction hread⟩

end IntentGraph
