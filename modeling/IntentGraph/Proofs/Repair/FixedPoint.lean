import IntentGraph.Proofs.Repair.Closure
import IntentGraph.Proofs.Validation

/-!
# Repair is a fixed point

A second repair finds nothing left to do. Nothing is redundant and nothing is an
orphan since the view is closed. For what the synthesis stages look for, reading
and writing only grow:

* `View.Synthesis.outputsRead`: with normalizers, every result that should be
  read is read;
* `View.mirrorPlan?_of_addActions`: what lacks a mirror after an addition lacked
  it before. Every mirror reads the status of the call it was made for, so no
  call lacks one after the mirrors are made
  (`View.Synthesis.mirrorPlans_eq_nil`).

That results are read is a rule of its own in a full validation, and repair
discharges it whatever it starts from (`View.outputs_consumed_repair`).
-/

namespace IntentGraph.View

variable {v : View} {added : List Action} {config : Configuration}
  {prefixes : List String} {normalizers mirrors : List Action}

/-! ## Results -/

theorem unreadOutputs_eq_nil :
    v.unreadOutputs prefixes = [] ↔ v.OutputsRead prefixes := by
  rw [unreadOutputs, distinctBy_eq_nil, List.filterMap_eq_nil_iff]
  simp only [OutputsRead, Option.map_eq_none_iff, Option.filter_eq_none_iff,
    Bool.not_eq_true', Bool.not_eq_false]

/-- A result that nobody reads has its key among the unread ones. -/
theorem exists_mem_unreadOutputs {a : Action} (ha : a ∈ v.mutation.actions)
    {key : String} (hkey : expectedOutput? prefixes a = some key)
    (hunread : v.isConsumed key a.id = false) :
    ∃ o ∈ v.unreadOutputs prefixes, o.key = key := by
  have hmem : key ∈ (v.mutation.actions.filterMap fun a =>
      ((expectedOutput? prefixes a).filter fun key =>
        !v.isConsumed key a.id).map (UnreadOutput.mk a.id)).map (·.key) := by
    refine List.mem_map.2 ⟨⟨a.id, key⟩, List.mem_filterMap.2 ⟨a, ha, ?_⟩, rfl⟩
    rw [hkey]
    simp [hunread]
  exact List.mem_map.1 (mem_map_distinctBy.2 hmem)

/-- Only calls to integrations have results that should be read. -/
theorem expectedOutput?_eq_none {a : Action} (h : a.kind ≠ .integrationCall) :
    expectedOutput? prefixes a = none :=
  Option.eq_none_iff_forall_not_mem.2 fun _ hkey =>
    h (expectedOutput?_eq_some.1 hkey).1

namespace Synthesis

/-- With normalizers, every result that should be read is read. -/
theorem outputsRead (h : v.Synthesis config normalizers mirrors)
    (hon : config.repair.synthesizeNormalizers = true) :
    (v.addActions (normalizers ++ mirrors)).OutputsRead
      config.effectOnlyPrefixes := by
  intro a ha key hkey
  -- what was added calls no integration, so the call was there before
  have hold : a ∈ v.mutation.actions := by
    rcases mem_mutation_addActions.1 ha with hold | hnew
    · exact hold
    · rw [expectedOutput?_eq_none (h.kind_ne hnew)] at hkey
      cases hkey
  cases hread : v.isConsumed key a.id with
  | true => exact isConsumed_addActions h.fresh hread
  | false =>
    obtain ⟨o, ho, rfl⟩ := exists_mem_unreadOutputs hold hkey hread
    have hmade := h.normalizersMade
    rw [plannedNormalizers, if_pos hon] at hmade
    obtain ⟨n, hn, heq, _⟩ := mem_left_of_forall₂ hmade ho
    have hreads : o.key ∈ n.readKeys := by
      rw [heq]
      simp [Action.readKeys, UnreadOutput.normalizer]
    exact isConsumed_of_added h.fresh (List.mem_append_left _ hn) hreads hold

end Synthesis

/-! ## Status mirrors -/

/-- Whatever was owned is owned. -/
theorem mem_ownedKeys_addActions (fresh : v.Fresh added) {key : String}
    (h : key ∈ v.ownedKeys) :
    key ∈ (v.addActions added).ownedKeys := by
  have hactions : ∀ a ∈ v.actions, a ∈ (v.addActions added).actions :=
    fun a ha => (mem_actions_addActions fresh).2 (.inl ha)
  simp only [ownedKeys, executorManagedKeys, integrationOutputs,
    KeySet.mem_members, KeySet.mem_ofList, List.mem_append, List.mem_flatMap,
    List.mem_filterMap, List.mem_filter] at h ⊢
  rcases h
    with (⟨output, ⟨a, ⟨ha, hkind⟩, hout⟩, hkey⟩ | ⟨a, ha, hkey⟩) | hcomponent
  · exact .inl (.inl ⟨output, ⟨a, ⟨hactions a ha, hkind⟩, hout⟩, hkey⟩)
  · exact .inl (.inr ⟨a, hactions a ha, hkey⟩)
  · exact .inr hcomponent

theorem isMirrorable_iff {key : String} :
    v.isMirrorable key = true ↔ key ∈ v.componentReadKeys
      ∧ key ∉ v.ownedKeys := by
  rw [isMirrorable, Bool.and_eq_true, Bool.not_eq_true', ← Bool.not_eq_true,
    KeySet.contains_iff_mem, List.contains_iff_mem]

theorem isMirrorable_of_addActions (fresh : v.Fresh added) {key : String}
    (h : (v.addActions added).isMirrorable key = true) :
    v.isMirrorable key = true := by
  obtain ⟨hread, hfree⟩ := isMirrorable_iff.1 h
  exact isMirrorable_iff.2 ⟨hread,
    fun howned => hfree (mem_ownedKeys_addActions fresh howned)⟩

/-- What is expected after an addition was expected before. -/
theorem expectedStatus?_of_addActions (fresh : v.Fresh added) {dataKey : String}
    (h : ((v.addActions added).expectedStatus? dataKey).isSome) :
    (v.expectedStatus? dataKey).isSome := by
  obtain ⟨found, hfound⟩ := Option.isSome_iff_exists.1 h
  obtain ⟨key, hkey, hsome⟩ := List.exists_of_findSome?_eq_some hfound
  rw [expectedStatus?, List.findSome?_isSome_iff]
  refine ⟨key, hkey, ?_⟩
  cases hbase : Key.statusBase? key with
  | none => simp [hbase] at hsome
  | some base =>
    simp only [hbase, Option.bind_eq_bind, Option.bind_some] at hsome ⊢
    split at hsome
    · next hall =>
      obtain ⟨hne, hstem, hstatus, herror⟩ := hall
      rw [if_pos ⟨hne, hstem, isMirrorable_of_addActions fresh hstatus,
        isMirrorable_of_addActions fresh herror⟩]
      rfl
    · cases hsome

/-- What a plan for a mirror says of its call. -/
theorem mirrorPlan?_eq_some {a : Action} {p : MirrorPlan} :
    v.mirrorPlan? a = some p ↔
      a.kind = .integrationCall ∧ a.assignedKey? = some p.dataKey
        ∧ v.isConsumed p.status a.id = false ∧ v.isConsumed p.error a.id = false
        ∧ v.expectedStatus? p.dataKey = some (p.uiStatus, p.uiError) := by
  obtain ⟨dataKey, uiStatus, uiError⟩ := p
  unfold mirrorPlan?
  by_cases hkind : a.kind = .integrationCall
  · cases hkey : a.assignedKey? with
    | none => simp [hkind]
    | some key =>
      simp only [hkind, ne_eq, not_true_eq_false, if_false, Option.pure_def,
        Option.bind_eq_bind, Option.bind_some, Bool.or_eq_true,
        Option.some.injEq, true_and, MirrorPlan.status, MirrorPlan.error]
      constructor
      · intro h
        split at h
        · cases h
        · next hread =>
          obtain ⟨⟨uiStatus, uiError⟩, hui, heq⟩ := Option.bind_eq_some_iff.1 h
          cases heq
          rw [not_or, Bool.not_eq_true, Bool.not_eq_true] at hread
          exact ⟨rfl, hread.1, hread.2, hui⟩
      · rintro ⟨rfl, hstatus, herror, hui⟩
        simp [hstatus, herror, hui]
  · simp [hkind]

/-- A call that lacks a mirror after an addition lacked it before. -/
theorem mirrorPlan?_of_addActions (fresh : v.Fresh added) {a : Action}
    {p : MirrorPlan} (h : (v.addActions added).mirrorPlan? a = some p) :
    ∃ q, v.mirrorPlan? a = some q ∧ q.dataKey = p.dataKey := by
  obtain ⟨hkind, hkey, hstatus, herror, hexpected⟩ := mirrorPlan?_eq_some.1 h
  have hunread : ∀ key, (v.addActions added).isConsumed key a.id = false →
      v.isConsumed key a.id = false := by
    intro key hnew
    rw [← Bool.not_eq_true] at hnew ⊢
    exact fun hold => hnew (isConsumed_addActions fresh hold)
  obtain ⟨⟨uiStatus, uiError⟩, hui⟩ :=
    Option.isSome_iff_exists.1
      (expectedStatus?_of_addActions fresh (by rw [hexpected]; rfl))
  exact ⟨⟨p.dataKey, uiStatus, uiError⟩,
    mirrorPlan?_eq_some.2 ⟨hkind, hkey, hunread _ hstatus,
      hunread _ herror, hui⟩, rfl⟩

/-- With mirrors, no call lacks one. -/
theorem Synthesis.mirrorPlans_eq_nil
    (h : v.Synthesis config normalizers mirrors)
    (hon : config.repair.synthesizeStatusMirrors = true) :
    (v.addActions (normalizers ++ mirrors)).mirrorPlans = [] := by
  rw [mirrorPlans, List.filterMap_eq_nil_iff]
  intro a ha
  by_contra hplan
  obtain ⟨p, hp⟩ := Option.ne_none_iff_exists'.1 hplan
  obtain ⟨hkind, _, hunread, _⟩ := mirrorPlan?_eq_some.1 hp
  have hold : a ∈ (v.addActions normalizers).mutation.actions := by
    rw [addActions_append] at ha
    rcases mem_mutation_addActions.1 ha with hold | hnew
    · exact hold
    · exact absurd hkind (h.kind_ne (List.mem_append_right _ hnew))
  rw [addActions_append] at hp hunread
  obtain ⟨q, hq, hdata⟩ := mirrorPlan?_of_addActions h.freshMirrors hp
  have hmade := h.mirrorsMade
  rw [plannedMirrors, if_pos hon] at hmade
  obtain ⟨b, hb, heq, _⟩ :=
    mem_left_of_forall₂ hmade (List.mem_filterMap.2 ⟨a, hold, hq⟩)
  -- the mirror made for the call reads its status
  have hreads : p.status ∈ b.readKeys := by
    rw [heq, MirrorPlan.status, ← hdata]
    simp [Action.readKeys, MirrorPlan.mirror, MirrorPlan.status]
  rw [isConsumed_of_added h.freshMirrors hb hreads hold] at hunread
  cases hunread

/-! ## The second repair -/

/-- A closed view has nothing to remove and nothing to bind. -/
theorem Closed.settle_eq (closed : v.Closed) (config : Configuration) :
    v.settle v.reachability config = ⟨v.mutation, []⟩ := by
  have hremoved : v.redundantIds v.reachability = ∅ :=
    closed.redundantIds_eq_empty
  have horphans : v.reachability.orphans = [] := orphans_eq_nil.2 closed
  simp [settle, Repairing.removeRedundant, Repairing.bindOrphans,
    Repairing.view, hremoved, bindingPlans, horphans, Mutation.bindAll]

/-- A closed view whose synthesis is done is left as it is. -/
theorem Closed.repair_eq (closed : v.Closed)
    (hnormalizers : v.plannedNormalizers config = [])
    (hmirrors : v.plannedMirrors config = []) :
    v.repair v.reachability config = ⟨v.mutation, []⟩ := by
  rw [View.repair_eq, closed.settle_eq]
  exact Repairing.synthesize_eq_self hnormalizers hmirrors

/-- After a repair with normalizers every result that should be read is read. -/
theorem outputsRead_repaired (v : View) (reach : Reachability)
    (hon : config.repair.synthesizeNormalizers = true) :
    (v.repaired reach config).OutputsRead config.effectOnlyPrefixes := by
  obtain ⟨settled, normalizers, mirrors, _, _, hsynthesis, hview⟩ :=
    exists_repair v reach config
  rw [hview]
  exact hsynthesis.outputsRead hon

/-- After a repair with mirrors no call lacks one. -/
theorem mirrorPlans_repaired (v : View) (reach : Reachability)
    (hon : config.repair.synthesizeStatusMirrors = true) :
    (v.repaired reach config).mirrorPlans = [] := by
  obtain ⟨settled, normalizers, mirrors, _, _, hsynthesis, hview⟩ :=
    exists_repair v reach config
  rw [hview]
  exact hsynthesis.mirrorPlans_eq_nil hon

/-- After a repair the synthesis stages have nothing to make. -/
theorem planned_repaired (v : View) (reach : Reachability)
    (config : Configuration) :
    (v.repaired reach config).plannedNormalizers config = []
      ∧ (v.repaired reach config).plannedMirrors config = [] := by
  rw [plannedNormalizers, plannedMirrors]
  constructor
  · split
    · next hon =>
      exact unreadOutputs_eq_nil.2 (outputsRead_repaired v reach hon)
    · rfl
  · split
    · next hon => exact mirrorPlans_repaired v reach hon
    · rfl

/-- Repairing what was repaired changes nothing and records nothing. -/
theorem repair_repair (m : Mutation) (prior : Option Snapshot)
    (config : Configuration) :
    let v : View := ⟨m, prior⟩
    let once : View := ⟨(v.repair v.reachability config).mutation, prior⟩
    once.repair once.reachability config = ⟨once.mutation, []⟩ := by
  intro v once
  obtain ⟨hnormalizers, hmirrors⟩ := planned_repaired v v.reachability config
  exact (closed_repair v config).repair_eq hnormalizers hmirrors

/-! ## The contract of results -/

/-- The rule that asks for a reader of every result. -/
def outputRule : String := "integration_output_consumed"

theorem check_outputRule (v : View) (config : Configuration) :
    (Rule.table.find? (·.id == outputRule)).map (·.check config v)
      = some (v.unconsumedViolations config.effectOnlyPrefixes) := rfl

/-- Repair with normalizers discharges the contract of results, on the strength
of any analysis: the rule on results finds nothing, and whatever a call assigns
that is not for its effect alone, some component renders it or an action of
another id depends on it. -/
theorem outputs_consumed_repair (m : Mutation) (prior : Option Snapshot)
    (reach : Reachability) (config : Configuration)
    (hon : config.repair.synthesizeNormalizers = true) :
    let after : View :=
      ⟨((View.mk m prior).repair reach config).mutation, prior⟩
    (Rule.table.find? (·.id == outputRule)).map (·.check config after) = some []
    ∧ ∀ a ∈ after.mutation.actions, a.kind = .integrationCall →
      a.looksEffectOnly config.effectOnlyPrefixes = false →
      ∀ key, a.assignedKey? = some key →
        (∃ c ∈ after.components, key ∈ c.readKeys)
          ∨ ∃ b ∈ after.actions, b.id ≠ a.id ∧ key ∈ b.readKeys := by
  intro after
  have hread : after.OutputsRead config.effectOnlyPrefixes :=
    outputsRead_repaired ⟨m, prior⟩ reach hon
  refine ⟨?_, outputsRead_iff.1 hread⟩
  rw [check_outputRule, unconsumedViolations_eq_nil.2 hread]

/-- Two calls of one id assign one key, and the second depends on it. Another
action does too, but it only writes what the executor keeps, and a stale
analysis says that it cannot run. -/
def sharedOutput : View where
  mutation := { Mutation.empty with
    actionsAdded := [
      { Action.bare "load_rows" .integrationCall with
        config := [(ConfigKey.assignTo, .string "rows")] },
      { Action.bare "load_rows" .integrationCall with
        config := [(ConfigKey.assignTo, .string "rows")]
        inputs := some ["rows"] },
      { Action.bare "watch_rows" .internal with
        config := [(ConfigKey.synthetic, .string ConfigKey.madeByRepair),
          (ConfigKey.stateKey, .string "rowsStatus")]
        inputs := some ["rows"] }] }
  prior := some { Snapshot.empty with
    actions := [Action.bare "normalize_rows" .internal] }

/-- The reader goes, and a normalizer that the snapshot does not hide comes in
its place. -/
theorem outputs_consumed_repair_sharedOutput :
    let after := (sharedOutput.repair ⟨∅, []⟩ .default).mutation
    sharedOutput.isConsumed "rows" "load_rows" = true
    ∧ after.actions.map (·.id) = ["load_rows", "load_rows", "normalize_rows_2"]
    ∧ (Rule.table.find? (·.id == outputRule)).map
        (·.check .default ⟨after, sharedOutput.prior⟩) = some []
    ∧ ∃ b ∈ (View.mk after sharedOutput.prior).actions,
        b.id ≠ "load_rows" ∧ "rows" ∈ b.readKeys := by
  intro after
  obtain ⟨hrule, hread⟩ :=
    outputs_consumed_repair sharedOutput.mutation sharedOutput.prior ⟨∅, []⟩
    .default rfl
  refine ⟨by decide +kernel, by decide +kernel, hrule, ?_⟩
  have hcall := hread { Action.bare "load_rows" .integrationCall with
    config := [(ConfigKey.assignTo, .string "rows")] } (by decide +kernel) rfl
      (by decide +kernel)
    "rows" (by decide +kernel)
  have hnone : (View.mk after sharedOutput.prior).components = [] := by
    decide +kernel
  exact hcall.resolve_left fun ⟨c, hc, _⟩ => List.not_mem_nil (hnone ▸ hc)

end IntentGraph.View
