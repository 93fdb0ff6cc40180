import IntentGraph.Proofs.Ownership
import IntentGraph.Validation.Report

/-!
# What validation certifies

A rule that finds nothing says something about the view. `View.Admissible` puts
together what the structural rules say when none of the fatal ones finds
anything, and `View.OutputsRead` is what the one fatal rule of scope `contract`
adds.

* `View.fatal?_structural`, `View.fatal?_full`: validation refuses nothing iff
  the view is admissible, and for a full validation its results are read too.
-/

namespace IntentGraph.View

variable {v : View} {a : Action} {prefixes : List String}

/-! ## Single rules -/

theorem actionKindViolations_eq_nil :
    v.actionKindViolations = []
      ↔ ∀ a ∈ v.mutation.actions, a.kind.unknown? = none := by
  simp [actionKindViolations]

theorem componentKindViolations_eq_nil :
    v.componentKindViolations = []
      ↔ ∀ c ∈ v.mutation.components, c.kind.unknown? = none := by
  simp [componentKindViolations]

/-- Every trigger, step and data source of the mutation was recognized. -/
structure PayloadsKnown (v : View) : Prop where
  trigger : ∀ a ∈ v.mutation.actions, ∀ t ∈ a.triggeredBy, t.raw? = none
  step : ∀ a ∈ v.mutation.actions, ∀ s ∈ a.steps, s.raw? = none
  dataSource :
    ∀ c ∈ v.mutation.components, c.dataSource.bind DataSource.raw? = none

theorem payloadViolations_eq_nil :
    v.payloadViolations = [] ↔ v.PayloadsKnown := by
  simp only [payloadViolations, List.append_eq_nil_iff, List.flatMap_eq_nil_iff,
    List.map_eq_nil_iff, List.filterMap_eq_nil_iff, Option.map_eq_none_iff]
  constructor
  · rintro ⟨hactions, hcomponents⟩
    exact ⟨fun a ha => (hactions a ha).1,
      fun a ha => (hactions a ha).2, hcomponents⟩
  · rintro ⟨htrigger, hstep, hsource⟩
    exact ⟨fun a ha => ⟨htrigger a ha, hstep a ha⟩, hsource⟩

/-- Nothing repeats iff the elements are different and none was seen before. -/
theorem repeated_eq_nil {seen ids : List String} :
    repeated seen ids = [] ↔ ids.Nodup ∧ ∀ id ∈ ids, id ∉ seen := by
  induction ids generalizing seen with
  | nil => simp [repeated]
  | cons id rest ih =>
    rw [repeated]
    -- an id that was seen is reported; another one is seen from now on
    by_cases hid : id ∈ seen
    · simp [hid]
    · have hnot : seen.contains id = false := by simpa using hid
      rw [hnot, if_neg Bool.false_ne_true, ih, List.nodup_cons,
        List.forall_mem_cons]
      constructor
      · rintro ⟨hnodup, hseen⟩
        have hrest : id ∉ rest := fun h => hseen id h List.mem_cons_self
        exact ⟨⟨hrest, hnodup⟩, hid,
          fun x hx h => hseen x hx (List.mem_cons_of_mem _ h)⟩
      · rintro ⟨⟨hrest, hnodup⟩, _, hseen⟩
        refine ⟨hnodup, fun x hx h => ?_⟩
        rcases List.mem_cons.1 h with rfl | h
        · exact hrest hx
        · exact hseen x hx h

theorem duplicateViolations_eq_nil :
    v.duplicateViolations = [] ↔ (v.mutation.actions.map (·.id)).Nodup := by
  rw [duplicateViolations, List.map_eq_nil_iff, repeated_eq_nil]
  simp

theorem pageEventViolations_eq_nil :
    v.pageEventViolations = [] ↔
      ∀ p ∈ v.mutation.pages, ∀ e ∈ p.events,
        Lifecycle.isEvent e.kind = true := by
  simp [pageEventViolations]

/-- Every event of the mutation runs an action of the view. -/
structure EventsResolve (v : View) : Prop where
  component : ∀ c ∈ v.mutation.components, ∀ id ∈ c.actionRefs, id ∈ v.actionIds
  page : ∀ p ∈ v.mutation.pages, ∀ e ∈ p.events, e.actionId ∈ v.actionIds

theorem eventTargetViolations_eq_nil :
    v.eventTargetViolations = [] ↔ v.EventsResolve := by
  have hkeep :
      ∀ ids : List String,
        (ids.filter fun id => !v.actionIds.contains id) = []
          ↔ ∀ id ∈ ids, id ∈ v.actionIds := by
    intro ids
    simp [List.filter_eq_nil_iff]
  simp only [eventTargetViolations, List.append_eq_nil_iff,
    List.flatMap_eq_nil_iff, List.map_eq_nil_iff, hkeep, List.forall_mem_map]
  exact ⟨fun h => ⟨h.1, h.2⟩, fun h => ⟨h.component, h.page⟩⟩

theorem ownershipViolations_eq_nil :
    v.ownershipViolations = [] ↔ v.IsForest := by
  rw [ownershipViolations, List.map_eq_nil_iff, issues_eq_nil]

theorem mem_integrationOutputs {key : String} :
    key ∈ v.integrationOutputs ↔
      ∃ a ∈ v.actions, a.kind = .integrationCall
        ∧ a.assignedKey? = some key := by
  simp only [integrationOutputs, KeySet.mem_ofList, List.mem_filterMap,
    List.mem_filter, decide_eq_true_eq, and_assoc]

/-- An action breaches no authority iff it writes no key of an integration from
a literal, and no list data. -/
theorem authorityBreaches_eq_empty :
    v.authorityBreaches a = ∅ ↔
      (∀ key ∈ a.literalWrites, key ∉ v.integrationOutputs) ∧ listUpdates a = []
        ∧ a.steps.filterMap listWrite? = [] := by
  rw [authorityBreaches, KeySet.ofList_eq_empty_iff, List.append_eq_nil_iff,
    List.append_eq_nil_iff, List.filter_eq_nil_iff, and_assoc]
  simp only [KeySet.contains_iff_mem, KeySet.mem_members]

theorem dataAuthorityViolations_eq_nil :
    v.dataAuthorityViolations = [] ↔
      ∀ a ∈ v.mutation.actions, a.kind = .internal →
        v.authorityBreaches a = ∅ := by
  simp [dataAuthorityViolations]

theorem expectedOutput?_eq_some {key : String} :
    expectedOutput? prefixes a = some key ↔
      a.kind = .integrationCall ∧ a.looksEffectOnly prefixes = false
        ∧ a.assignedKey? = some key := by
  simp [expectedOutput?, and_assoc]

/-- Somebody reads every result of the mutation's calls that should be read. -/
def OutputsRead (v : View) (prefixes : List String) : Prop :=
  ∀ a ∈ v.mutation.actions, ∀ key, expectedOutput? prefixes a = some key →
    v.isConsumed key a.id = true

/-- A reader is a component, or an action of another id than the call's. -/
theorem outputsRead_iff :
    v.OutputsRead prefixes
      ↔ ∀ a ∈ v.mutation.actions, a.kind = .integrationCall →
      a.looksEffectOnly prefixes = false → ∀ key, a.assignedKey? = some key →
        (∃ c ∈ v.components, key ∈ c.readKeys)
          ∨ ∃ b ∈ v.actions, b.id ≠ a.id ∧ key ∈ b.readKeys := by
  simp only [OutputsRead, isConsumed_iff, expectedOutput?_eq_some, and_imp]
  exact forall₂_congr fun a _ =>
    ⟨fun h hkind heffect key => h key hkind heffect,
      fun h key hkind heffect => h hkind heffect key⟩

theorem unconsumedViolations_eq_nil :
    v.unconsumedViolations prefixes = [] ↔ v.OutputsRead prefixes := by
  rw [unconsumedViolations, List.filterMap_eq_nil_iff]
  simp only [OutputsRead, Option.map_eq_none_iff, Option.filter_eq_none_iff,
    Bool.not_eq_true', Bool.not_eq_false]

/-! ## The table -/

/-- A rule stands in the table once. -/
theorem rule_eq_of_id_eq {rule rule' : Rule} (hrule : rule ∈ Rule.table)
    (hrule' : rule' ∈ Rule.table) (hid : rule.id = rule'.id) :
    rule = rule' := by
  have hnodup : (Rule.table.map (·.id)).Nodup := by decide
  exact List.inj_on_of_nodup_map hnodup hrule hrule' hid

/-- A rule that finds nothing stands in no report. -/
theorem rule_ne_of_mem_validate {config : Configuration}
    {mode : ValidationMode} {f : Finding} (hf : f ∈ v.validate config mode)
    {rule : Rule} (hrule : rule ∈ Rule.table)
    (hnone : rule.check config v = []) : f.rule ≠ rule.id := by
  obtain ⟨rule', hmem, hf⟩ := List.mem_flatMap.1 hf
  obtain ⟨violation, hviolation, rfl⟩ := List.mem_map.1 hf
  intro hid
  rw [rule_eq_of_id_eq (List.mem_filter.1 hmem).1 hrule hid,
    hnone] at hviolation
  cases hviolation

/-! ## All rules -/

/-- The rules on the lists and the selects of the mutation find nothing. -/
structure BindingsSound (v : View) : Prop where
  listChildren : v.listChildrenViolations = []
  renderModel : v.renderModelViolations = []
  itemClick : v.itemClickViolations = []
  disabledKey : v.disabledKeyViolations = []
  binding : v.bindingViolations = []
  option : v.optionViolations = []

/-- What holds of a view in which no structural rule finds anything fatal. -/
structure Admissible (v : View) : Prop where
  componentKind : ∀ c ∈ v.mutation.components, c.kind.unknown? = none
  actionKind : ∀ a ∈ v.mutation.actions, a.kind.unknown? = none
  payloads : v.PayloadsKnown
  distinct : (v.mutation.actions.map (·.id)).Nodup
  lifecycle : ∀ p ∈ v.mutation.pages, ∀ e ∈ p.events,
    Lifecycle.isEvent e.kind = true
  events : v.EventsResolve
  forest : v.IsForest
  bindings : v.BindingsSound
  authority : ∀ a ∈ v.mutation.actions, a.kind = .internal →
    v.authorityBreaches a = ∅

/-- A mode refuses nothing iff none of its fatal rules finds anything. -/
theorem fatal?_validate {config : Configuration} {mode : ValidationMode} :
    (v.validate config mode).fatal? = none ↔
      ∀ rule ∈ Rule.table, mode.covers rule.scope = true →
        rule.severity = .fatal →
        rule.check config v = [] := by
  simp only [Findings.fatal?, validate, List.find?_eq_none, List.mem_flatMap,
    List.mem_filter, List.mem_map, Finding.isFatal]
  constructor
  · intro h rule hrule hcovers hfatal
    rw [List.eq_nil_iff_forall_not_mem]
    intro violation hviolation
    exact h _ ⟨rule, ⟨hrule, hcovers⟩, violation, hviolation, rfl⟩
      (by simp [hfatal])
  · rintro h _ ⟨rule, ⟨hrule, hcovers⟩, violation, hviolation, rfl⟩ hfatal
    rw [h rule hrule hcovers (by simpa using hfatal)] at hviolation
    cases hviolation

/-- A structural validation refuses nothing iff the view is admissible. -/
theorem fatal?_structural {config : Configuration} :
    (v.validate config .structural).fatal? = none ↔ v.Admissible := by
  rw [fatal?_validate]
  simp only [Rule.table, Rule.fatal, Rule.advisory, List.forall_mem_cons,
    ValidationMode.covers, decide_true, forall_const, reduceCtorEq,
    IsEmpty.forall_iff, decide_false, Bool.false_eq_true, List.not_mem_nil,
    implies_true, and_true, componentKindViolations_eq_nil,
    actionKindViolations_eq_nil, payloadViolations_eq_nil,
    duplicateViolations_eq_nil, pageEventViolations_eq_nil,
    eventTargetViolations_eq_nil, ownershipViolations_eq_nil,
    dataAuthorityViolations_eq_nil]
  constructor
  · rintro ⟨hcomponent, haction, hpayloads, hdistinct, hlifecycle, hevents,
      hforest, hchildren, hmodel, hclick, hdisabled, hbinding,
      hoption, hauthority⟩
    exact ⟨hcomponent, haction, hpayloads, hdistinct, hlifecycle,
      hevents, hforest,
      ⟨hchildren, hmodel, hclick, hdisabled, hbinding, hoption⟩, hauthority⟩
  · intro h
    exact ⟨h.componentKind, h.actionKind, h.payloads, h.distinct, h.lifecycle,
      h.events, h.forest, h.bindings.listChildren, h.bindings.renderModel,
      h.bindings.itemClick, h.bindings.disabledKey, h.bindings.binding,
      h.bindings.option, h.authority⟩

/-- A full validation asks besides that results are read. -/
theorem fatal?_full {config : Configuration} :
    (v.validate config .full).fatal? = none ↔
      v.Admissible ∧ v.OutputsRead config.effectOnlyPrefixes := by
  rw [← @fatal?_structural v config, ← unconsumedViolations_eq_nil,
    fatal?_validate, fatal?_validate]
  simp only [Rule.table, Rule.fatal, Rule.advisory, List.forall_mem_cons,
    ValidationMode.covers, decide_true, forall_const, reduceCtorEq,
    IsEmpty.forall_iff, decide_false, Bool.false_eq_true, List.not_mem_nil,
    implies_true, and_true, and_assoc]

end IntentGraph.View
