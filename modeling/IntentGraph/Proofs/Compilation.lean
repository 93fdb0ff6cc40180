import IntentGraph.Compilation
import IntentGraph.Proofs.Execution.GraphBuild
import IntentGraph.Proofs.Normalization
import IntentGraph.Proofs.Outcome
import IntentGraph.Proofs.Repair.FixedPoint
import IntentGraph.Proofs.Repair.Validity

/-!
# What compilation accepts

`IntentDocument.Passes` lists what a document has to pass: the two validations,
and the last look at what can run. A graph is always built, so nothing else
decides (`IntentDocument.exists_compile` and `IntentDocument.of_compile`).

* With repair, only the first validation can refuse a document:
  `IntentDocument.passes_of_structural`.
* `IntentDocument.Certified` says in plain terms what holds of every document
  that is accepted.
-/

namespace IntentGraph

namespace Findings

theorem accept_of_fatal {findings : Findings} {f : Finding}
    (h : findings.fatal? = some f) :
    findings.accept = .error (.finding f) := by
  simp [accept, rejection?, h]

theorem accept_of_none {findings : Findings} (h : findings.fatal? = none) :
    findings.accept = .ok findings.advisories := by
  simp [accept, rejection?, h]

theorem fatal?_of_accept {findings advisories : Findings}
    (h : findings.accept = .ok advisories) :
    findings.fatal? = none := by
  cases hfatal : findings.fatal? with
  | none => rfl
  | some f =>
    rw [accept_of_fatal hfatal] at h
    cases h

end Findings

/-! ## What was recognized -/

theorem ActionKind.ne_unknown {kind : ActionKind} (h : kind.unknown? = none)
    (name : String) :
    kind ≠ .unknown name := by
  rintro rfl
  cases h

theorem ComponentKind.ne_unknown {kind : ComponentKind}
    (h : kind.unknown? = none) (name : String) : kind ≠ .unknown name := by
  rintro rfl
  cases h

theorem Trigger.ne_unknown {t : Trigger} (h : t.raw? = none) (raw : Json) :
    t ≠ .unknown raw := by
  rintro rfl
  cases h

theorem Step.ne_unknown {s : Step} (h : s.raw? = none) (raw : Json) :
    s ≠ .unknown raw := by
  rintro rfl
  cases h

theorem DataSource.ne_unknown {source : Option DataSource}
    (h : source.bind DataSource.raw? = none) (raw : Json) :
    source ≠ some (.unknown raw) := by
  rintro rfl
  cases h

namespace IntentDocument

variable {config : Configuration} {d : IntentDocument} {c : Compilation}

/-! ## The stages -/

/-- The document in its normal spelling. -/
def normalForm (config : Configuration) (d : IntentDocument) : IntentDocument :=
  (d.normalize config.normalize).1

/-- The document repaired if the configuration says so. -/
def mended (config : Configuration) (d : IntentDocument) : IntentDocument :=
  (d.repairIfEnabled config).1

/-- What a document has to pass to be compiled. -/
structure Passes (config : Configuration) (d : IntentDocument) : Prop where
  structural : ((d.normalForm config).validate config .structural).fatal? = none
  full :
    (((d.normalForm config).mended config).validate config .full).fatal? = none
  closed : ((d.normalForm config).mended config).reachability.orphans = []

theorem requireClosed_eq_ok {reach : Reachability}
    (h : d.requireClosed = .ok reach) :
    d.reachability.orphans = [] := by
  rw [requireClosed] at h
  split at h
  · assumption
  · cases h

/-- What passes is compiled. -/
theorem exists_compile (h : d.Passes config) :
    ∃ c, d.compile config = .ok c := by
  obtain ⟨built, ordered, hbuilt, _⟩ :=
    (View.ofDocument ((d.normalForm config).mended config)).exists_buildGraph
      config.capabilities
  have hclosed : ((d.normalForm config).mended config).requireClosed
      = .ok ((d.normalForm config).mended config).reachability := by
    rw [requireClosed, h.closed]
  have hgraph :
      (((d.normalForm config).mended config).buildGraph
        config.capabilities).mapError
      Rejection.shortage = .ok built := by
    rw [buildGraph, hbuilt]
    rfl
  unfold compile
  exact exists_bind_eq_ok (Findings.accept_of_none h.structural)
    (exists_bind_eq_ok (Findings.accept_of_none h.full)
      (exists_bind_eq_ok hclosed (exists_bind_eq_ok hgraph ⟨_, rfl⟩)))

/-- What is compiled has passed. -/
theorem of_compile (h : d.compile config = .ok c) :
    d.Passes config ∧ ∃ built,
      (View.ofDocument ((d.normalForm config).mended config)).buildGraph
          config.capabilities = .ok built
        ∧ c.document = { (d.normalForm config).mended config with
            executionGraph := some built.graph } := by
  unfold compile at h
  obtain ⟨_, hstructural, h⟩ := exists_of_bind_eq_ok h
  obtain ⟨_, hfull, h⟩ := exists_of_bind_eq_ok h
  obtain ⟨_, hclosed, h⟩ := exists_of_bind_eq_ok h
  obtain ⟨built, hbuilt, h⟩ := exists_of_bind_eq_ok h
  cases h
  have passes : d.Passes config := ⟨Findings.fatal?_of_accept hstructural,
    Findings.fatal?_of_accept hfull, requireClosed_eq_ok hclosed⟩
  exact ⟨passes, built, eq_ok_of_mapError hbuilt, rfl⟩

/-- A fatal finding of the first validation is the answer. -/
theorem compile_of_fatal {f : Finding}
    (h : ((d.normalForm config).validate config .structural).fatal? = some f) :
    d.compile config = .error (.finding f) := by
  unfold compile
  exact bind_eq_error (Findings.accept_of_fatal h)

/-! ## Repair rejects nothing -/

theorem view_mended (henabled : config.repair.enabled = true)
    (d : IntentDocument) :
    View.ofDocument (d.mended config)
      = (View.ofDocument d).repaired
        (View.ofDocument d).reachability config := by
  rw [mended, repairIfEnabled, if_pos henabled]
  rfl

/-- With repair, a document that is valid as it comes passes whatever is asked
afterwards. -/
theorem passes_of_structural (henabled : config.repair.enabled = true)
    (hnormalizers : config.repair.synthesizeNormalizers = true)
    (mendable : (View.ofDocument (d.normalForm config)).Mendable)
    (h : ((d.normalForm config).validate config .structural).fatal? = none) :
    d.Passes config := by
  have hadmissible := View.fatal?_structural.1 h
  refine ⟨h, ?_, ?_⟩
  · rw [validate, view_mended henabled]
    exact View.fatal?_full.2
      ⟨hadmissible.repaired mendable config,
        View.outputsRead_repaired _ _ hnormalizers⟩
  · rw [reachability, view_mended henabled]
    exact View.orphans_eq_nil.2 (View.closed_repair _ config)

/-- With repair, compilation refuses only what is invalid as it comes, and says
why. What is asked of the snapshot concerns the normalized document: the events
of its pages are lifecycle events that run something, and no action of it is
hidden by one that repair made. -/
theorem compile_iff_structural (config : Configuration) (d : IntentDocument)
    (henabled : config.repair.enabled = true)
    (hnormalizers : config.repair.synthesizeNormalizers = true)
    (hcomponents : ((d.normalForm config).mutation.components.map (·.id)).Nodup)
    (hpages : ∀ s, (d.normalForm config).prior = some s →
      ∀ p ∈ s.pages, ∀ e ∈ p.events, Lifecycle.isEvent e.kind = true
        ∧ e.actionId ∈ (View.ofDocument (d.normalForm config)).actionIds)
    (hactions : ∀ s, (d.normalForm config).prior = some s → ∀ a ∈ s.actions,
      ∀ b ∈ (d.normalForm config).mutation.actions, b.isSynthetic = true →
        a.id ≠ b.id) :
    let findings := (d.normalForm config).validate config .structural
    ((∃ c, d.compile config = .ok c) ↔ findings.fatal? = none)
      ∧ ∀ f, findings.fatal? = some f → ∃ r, d.compile config = .error r
        ∧ r = .finding f ∧ r.reason = f.rule ++ ": " ++ f.violation.message
        ∧ r.actionId? = f.violation.actionId?
        ∧ r.allowedKinds? = f.violation.allowedKinds? := by
  intro findings
  have mendable : (View.ofDocument (d.normalForm config)).Mendable := by
    refine ⟨hcomponents, fun p hp e he => ?_, fun p hp e he => ?_,
      fun a ha => ?_⟩
    · obtain ⟨s, hs, hp⟩ := View.mem_priorPages.1 hp
      exact (hpages s hs p hp e he).1
    · obtain ⟨s, hs, hp⟩ := View.mem_priorPages.1 hp
      exact (hpages s hs p hp e he).2
    · obtain ⟨s, hs, ha⟩ := View.mem_priorActions.1 ha
      exact hactions s hs a ha
  refine ⟨⟨?_, fun h => ?_⟩, fun f h => ?_⟩
  · rintro ⟨c, hc⟩
    exact (of_compile hc).1.structural
  · exact exists_compile (passes_of_structural henabled hnormalizers mendable h)
  · exact ⟨_, compile_of_fatal h, rfl, rfl, rfl, rfl⟩

/-- A page with a load that was wired before. -/
def settingsSnapshot : Snapshot :=
  { Snapshot.empty with
    pages := [⟨"settings", none, none, [],
      [⟨Lifecycle.pageLoad, "load_settings"⟩]⟩]
    actions := [Action.bare "load_settings" .internal] }

/-- A table of rows, and a call for them that nothing triggers yet. -/
def rowsDocument : IntentDocument where
  intentType := .modify
  mutation := { Mutation.empty with
    pagesAdded := [⟨"home", none, none, ["rows_table"], []⟩]
    componentsAdded :=
      [⟨"rows_table", .table, [("dataKey", .string "rows")], none,
        [⟨"onSelect", some "open_row", none, []⟩], [], none⟩]
    actionsAdded := [
      { Action.bare "load_rows" .integrationCall with
        config := [(ConfigKey.assignTo, .string "rows")] },
      Action.bare "open_row" .navigation] }
  prior := some settingsSnapshot
  executionGraph := none

/-- The table is compiled, though its call cannot run as it comes. -/
theorem exists_compile_rowsDocument :
    (rowsDocument.normalForm .default).reachability.orphans = ["load_rows"]
      ∧ ∃ c, rowsDocument.compile .default = .ok c := by
  have hprior :
      (rowsDocument.normalForm .default).prior = some settingsSnapshot := by
    decide +kernel
  refine ⟨by decide +kernel, ?_⟩
  refine (compile_iff_structural .default rowsDocument rfl rfl
    (by decide +kernel) ?_ ?_).1.2 (by decide +kernel)
  · intro s hs
    rw [hprior] at hs
    cases hs
    decide +kernel
  · intro s hs
    rw [hprior] at hs
    cases hs
    decide +kernel

/-! ## What an accepted document is like -/

/-- What compilation certifies of a document. -/
structure Certified (config : Configuration) (d : IntentDocument) : Prop where
  distinct : (d.mutation.actions.map (·.id)).Nodup
  canonical : ∀ a ∈ d.mutation.actions, IsCanonical a.id
  actionKind : ∀ a ∈ d.mutation.actions, ∀ name, a.kind ≠ .unknown name
  componentKind : ∀ c ∈ d.mutation.components, ∀ name, c.kind ≠ .unknown name
  trigger :
    ∀ a ∈ d.mutation.actions, ∀ t ∈ a.triggeredBy, ∀ raw, t ≠ .unknown raw
  step : ∀ a ∈ d.mutation.actions, ∀ s ∈ a.steps, ∀ raw, s ≠ .unknown raw
  dataSource :
    ∀ c ∈ d.mutation.components, ∀ raw, c.dataSource ≠ some (.unknown raw)
  componentEvent :
    ∀ c ∈ d.mutation.components, ∀ e ∈ c.events, ∀ id, e.actionId = some id →
    id ∈ (View.ofDocument d).actionIds
  pageEvent : ∀ p ∈ d.mutation.pages, ∀ e ∈ p.events,
    Lifecycle.isEvent e.kind = true ∧ e.actionId ∈ (View.ofDocument d).actionIds
  ownership : (View.ofDocument d).IsForest
  reachable : d.reachability.orphans = []
  read : ∀ a ∈ d.mutation.actions, a.kind = .integrationCall →
    a.looksEffectOnly config.effectOnlyPrefixes = false →
    ∀ key, a.assignedKey? = some key →
      (∃ c ∈ (View.ofDocument d).components, key ∈ c.readKeys)
        ∨ ∃ b ∈ (View.ofDocument d).actions, b.id ≠ a.id ∧ key ∈ b.readKeys
  graph : ∃ g, d.executionGraph = some g ∧ g.nodes.length =
    if d.mutation.actionCount = 0 then 0 else d.mutation.actionCount + 1

/-- Normalized ids stay canonical in repair. -/
theorem isCanonical_mended {a : Action}
    (ha : a ∈ ((d.normalForm config).mended config).mutation.actions) :
    IsCanonical a.id := by
  have hnormal :
      ∀ b ∈ (d.normalForm config).mutation.actions, IsCanonical b.id := by
    intro b hb
    rw [normalForm] at hb
    exact isCanonical_normalize hb
  by_cases henabled : config.repair.enabled = true
  · have hmem :
        a ∈ (View.ofDocument
          ((d.normalForm config).mended config)).mutation.actions := ha
    rw [view_mended henabled] at hmem
    exact View.isCanonical_repaired (View.ofDocument (d.normalForm config)) _
      config hnormal hmem
  · rw [mended, repairIfEnabled, if_neg henabled] at ha
    exact hnormal a ha

/-- What is accepted is certified, whether it was repaired or not. -/
theorem certified_of_compile {config : Configuration} {d : IntentDocument}
    {c : Compilation} (h : d.compile config = .ok c) :
    c.document.Certified config := by
  obtain ⟨passes, built, hbuilt, hdocument⟩ := of_compile h
  obtain ⟨admissible, hread⟩ := View.fatal?_full.1 passes.full
  have hview : View.ofDocument c.document
      = View.ofDocument ((d.normalForm config).mended config) := by
    rw [hdocument]
    rfl
  have hmutation :
      c.document.mutation = ((d.normalForm config).mended config).mutation :=
    congrArg View.mutation hview
  -- the graph is no part of the view, so what was found before it was put in
  -- still holds
  rw [← hview] at admissible hread hbuilt
  exact {
    distinct := admissible.distinct
    canonical := fun a ha => isCanonical_mended (hmutation ▸ ha)
    actionKind := fun a ha => ActionKind.ne_unknown (admissible.actionKind a ha)
    componentKind :=
      fun c hc => ComponentKind.ne_unknown (admissible.componentKind c hc)
    trigger := fun a ha t ht =>
      Trigger.ne_unknown (admissible.payloads.trigger a ha t ht)
    step := fun a ha s hs =>
      Step.ne_unknown (admissible.payloads.step a ha s hs)
    dataSource :=
      fun c hc => DataSource.ne_unknown (admissible.payloads.dataSource c hc)
    componentEvent := fun c hc e he id hid =>
      admissible.events.component c hc id (List.mem_filterMap.2 ⟨e, he, hid⟩)
    pageEvent := fun p hp e he =>
      ⟨admissible.lifecycle p hp e he, admissible.events.page p hp e he⟩
    ownership := admissible.forest
    reachable := by
      rw [reachability, hview]
      exact passes.closed
    read := fun a ha hkind heffect key hkey => by
      have hexpected :
          View.expectedOutput? config.effectOnlyPrefixes a = some key := by
        simp [View.expectedOutput?, hkind, heffect, hkey]
      have hconsumed := hread a ha key hexpected
      simpa [View.isConsumed] using hconsumed
    graph := ⟨built.graph, by rw [hdocument], View.length_nodes hbuilt⟩ }

/-- The table of rows is compiled to a certified document. -/
theorem certified_rowsDocument :
    ∃ c, rowsDocument.compile .default = .ok c
      ∧ c.document.Certified .default := by
  have passes : rowsDocument.Passes .default :=
    ⟨by decide +kernel, by decide +kernel, by decide +kernel⟩
  obtain ⟨c, hc⟩ := exists_compile passes
  exact ⟨c, hc, certified_of_compile hc⟩

end IntentDocument

end IntentGraph
