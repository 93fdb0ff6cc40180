import IntentGraph.Proofs.Repair.FixedPoint
import IntentGraph.Proofs.Repair.Hydration

/-!
# The log of repair

Repair records what it does as it goes, and two of its stages change a list only
where it does not hold the change already. The log is an exact account all the
same: the plans are for the orphans that stay, one for each
(`View.map_fst_boundPlans`), an orphan has none of the triggers that it could be
bound by (`View.addTrigger_of_orphan`), and every action that is made is new.

* `View.exists_log_repair`: the log, record by record;
* `View.mutation_eq_of_log_eq_nil`: what leaves no record changes nothing.

With what repair leaves behind being closed, `View.log_repair` is the account,
and says when there is nothing to tell.
-/

namespace IntentGraph

/-! ## What a record tells -/

/-- A record of repair, of a rule that fired for an action. -/
structure AuditRecord.Reports (r : AuditRecord) (rule : AuditRule)
    (id : String) : Prop where
  stage : r.stage = .repair
  rule : r.rule = rule
  actionId : r.actionId = some id

/-- A trigger that an orphan may be bound by, and the rule that tells of it. -/
inductive Trigger.BoundBy : Trigger → AuditRule → Prop
  | stateChange (key : String) : BoundBy (.stateChange key) .bindStateChange
  | pageLoad : BoundBy (.lifecycle Lifecycle.pageLoad) .bindPageLoad
  | safetyNet (reason : String) : BoundBy (.internal reason) .bindSafetyNet

namespace Binding

theorem boundBy_trigger (reason : String) (b : Binding) :
    (b.trigger reason).BoundBy b.rule := by
  cases b with
  | stateChange key => exact .stateChange key
  | pageLoad page => exact .pageLoad
  | safetyNet => exact .safetyNet reason

theorem reports_record (reason id : String) (b : Binding) :
    (b.record reason id).Reports b.rule id := ⟨rfl, rfl, rfl⟩

end Binding

/-- Actions that are made one for every plan are told of one by one. -/
theorem forall₂_reports_zipWith {α : Type} {make : α → String → Action}
    {record : α → String → AuditRecord} {rule : AuditRule} {plans : List α}
    {made : List Action} (hrecord : ∀ plan id, (record plan id).Reports rule id)
    (h : List.Forall₂ (MadeFrom make) plans made) :
    List.Forall₂ (fun a r => r.Reports rule a.id) made
      (List.zipWith (fun plan a => record plan a.id) plans made) := by
  induction h with
  | nil => exact .nil
  | cons _ _ ih => exact .cons (hrecord _ _) ih

theorem eq_nil_of_zipWith_eq_nil {α β γ : Type} {R : α → β → Prop}
    {f : α → β → γ} {xs : List α} {ys : List β} (h : List.Forall₂ R xs ys)
    (hnil : List.zipWith f xs ys = []) : ys = [] := by
  cases h with
  | nil => rfl
  | cons _ _ => cases hnil

namespace View

variable {v : View} {config : Configuration}

/-! ## The stages -/

theorem log_settle (v : View) (reach : Reachability) (config : Configuration) :
    (v.settle reach config).log
      = (v.redundantIds reach).members.map removalRecord
      ++ (v.boundPlans reach).map fun plan =>
        plan.2.record config.repair.safetyNetReason plan.1 := by
  have hremoved : (Repairing.removeRedundant ⟨v.mutation, []⟩ v.prior reach).log
      = (v.redundantIds reach).members.map removalRecord := by
    rw [Repairing.removeRedundant]
    split
    · next hempty =>
      have hnil : (v.redundantIds reach).members = [] :=
        List.isEmpty_iff.1 hempty
      rw [hnil, List.map_nil]
    · rfl
  rw [boundPlans, ← view_removeRedundant, ← hremoved]
  rfl

/-- The plans are for the orphans that stay, one for each and in their order. -/
theorem map_fst_boundPlans (v : View) :
    (v.boundPlans v.reachability).map (·.1)
      = v.reachability.orphans.filter (· ∉ v.redundantIds v.reachability) := by
  have hkept :
      ∀ id ∈ v.reachability.orphans.filter (· ∉ v.redundantIds v.reachability),
        id ∈ (v.removeActions
          (v.redundantIds v.reachability)).mutation.actions.map (·.id) := by
    intro id hid
    rw [List.mem_filter, decide_eq_true_eq] at hid
    obtain ⟨a, ha, rfl⟩ := List.mem_map.1 (mem_orphans.1 hid.1).1
    exact List.mem_map_of_mem (Mutation.mem_actions_removeActions.2 ⟨ha, hid.2⟩)
  rw [boundPlans, bindingPlans, List.map_map]
  show (List.filterMap _ _).map Action.id = _
  rw [map_id_filterMap_action?]
  simp only [List.contains_eq_mem, ← decide_not]
  exact List.filter_eq_self.2 fun id hid => by simpa using hkept id hid

/-- The records of repair, for the actions that its synthesis adds. -/
theorem exists_log_repair (v : View) (config : Configuration) :
    ∃ normalizers mirrors, (v.settled config).Synthesis config
      normalizers mirrors
      ∧ v.repaired v.reachability config
        = (v.settled config).addActions (normalizers ++ mirrors)
      ∧ (v.repair v.reachability config).log
        = (v.redundantIds v.reachability).members.map removalRecord
        ++ (v.boundPlans v.reachability).map (fun plan =>
          plan.2.record config.repair.safetyNetReason plan.1)
        ++ List.zipWith (fun o a => o.record a.id)
          ((v.settled config).plannedNormalizers config) normalizers
        ++ List.zipWith (fun p a => p.record a.id)
          (((v.settled config).addActions normalizers).plannedMirrors config)
          mirrors := by
  obtain ⟨normalizers, mirrors, hsynthesis, _, hview, hlog⟩ :=
    (v.settle v.reachability config).exists_synthesize v.prior config
  refine ⟨normalizers, mirrors, hsynthesis, hview, ?_⟩
  rw [repair_eq, hlog, log_settle]
  rfl

/-! ## Nothing to tell -/

/-- What leaves no record changes nothing. -/
theorem mutation_eq_of_log_eq_nil
    (h : (v.repair v.reachability config).log = []) :
    (v.repair v.reachability config).mutation = v.mutation := by
  obtain ⟨normalizers, mirrors, hsynthesis, hview, hlog⟩ :=
    exists_log_repair v config
  rw [hlog] at h
  simp only [List.append_eq_nil_iff, List.map_eq_nil_iff] at h
  obtain ⟨⟨⟨hremoved, hplans⟩, hnormalizations⟩, hmirrorings⟩ := h
  have horphans : v.reachability.orphans = [] := by
    have hkept := map_fst_boundPlans v
    rw [hplans, KeySet.members_eq_nil.1 hremoved] at hkept
    simpa using hkept.symm
  have hsettled : v.settled config = v := by
    rw [settled, (orphans_eq_nil.1 horphans : v.Closed).settle_eq]
    rfl
  -- a stage of synthesis that tells of nothing has made nothing
  have hnormalizers : normalizers = [] :=
    eq_nil_of_zipWith_eq_nil hsynthesis.normalizersMade hnormalizations
  have hmirrors : mirrors = [] :=
    eq_nil_of_zipWith_eq_nil hsynthesis.mirrorsMade hmirrorings
  calc (v.repair v.reachability config).mutation
      = (v.repaired v.reachability config).mutation := rfl
    _ = v.mutation := by
      rw [hview, hnormalizers, hmirrors, List.append_nil,
        addActions_nil, hsettled]

/-- Where repair changes nothing it has nothing to tell. -/
theorem log_eq_nil_of_mutation_eq
    (h : (v.repair v.reachability config).mutation = v.mutation) :
    (v.repair v.reachability config).log = [] := by
  have hview : v.repaired v.reachability config = v :=
    congrArg (View.mk · v.prior) h
  have hclosed := closed_repair v config
  obtain ⟨hnormalizers, hmirrors⟩ := planned_repaired v v.reachability config
  rw [hview] at hclosed hnormalizers hmirrors
  rw [hclosed.repair_eq hnormalizers hmirrors]

/-! ## The account -/

/-- A record tells of an orphan by the rule of the trigger that it has got, and
of that alone. -/
def ReportsBinding (v out : View) (id : String) (r : AuditRecord) : Prop :=
  ∃ a trigger rule, v.action? id = some a
    ∧ out.action? id = some { a with triggeredBy := a.triggeredBy ++ [trigger] }
    ∧ trigger.BoundBy rule ∧ r.Reports rule id

/-- What a log tells of the way from a view to the view `out`: the ids `gone` of
the actions that were removed, the orphans that were bound, and the actions that
were made, in this order and one by one. -/
structure Account (v : View) (config : Configuration) (out : View)
    (log : AuditLog) (gone : List String)
    (normalizers mirrors : List Action) : Prop where
  ascending : gone.Pairwise (· < ·)
  mem_gone : ∀ id, id ∈ gone ↔ id ∈ v.removed v.reachability
  actionsAdded :
    ∃ kept, out.mutation.actionsAdded = kept ++ (normalizers ++ mirrors)
    ∧ kept.map (·.id) = (v.mutation.actionsAdded.map (·.id)).filter (· ∉ gone)
  actionsUpdated : out.mutation.actionsUpdated.map (·.id)
    = (v.mutation.actionsUpdated.map (·.id)).filter (· ∉ gone)
  synthesis : (v.settled config).Synthesis config normalizers mirrors
  log : ∃ removals bindings normalizations mirrorings,
    log = removals ++ bindings ++ normalizations ++ mirrorings
    ∧ List.Forall₂
      (fun id r => r.Reports .removeRedundantStatusSetter id) gone removals
    ∧ List.Forall₂ (v.ReportsBinding out)
      (v.reachability.orphans.filter (· ∉ gone)) bindings
    ∧ List.Forall₂ (fun a r => r.Reports .synthesizeNormalizer a.id) normalizers
      normalizations
    ∧ List.Forall₂ (fun a r => r.Reports .synthesizeStatusMirror a.id)
      mirrors mirrorings

/-- The bindings are told of one by one. -/
theorem forall₂_reportsBinding (v : View) (config : Configuration) :
    List.Forall₂ (v.ReportsBinding (v.repaired v.reachability config))
      (v.reachability.orphans.filter (· ∉ v.redundantIds v.reachability))
      ((v.boundPlans v.reachability).map fun plan =>
        plan.2.record config.repair.safetyNetReason plan.1) := by
  rw [← map_fst_boundPlans, List.forall₂_map_left_iff,
    List.forall₂_map_right_iff, List.forall₂_same]
  rintro ⟨id, b⟩ hplan
  obtain ⟨horphan, hkept, a, ha, rfl⟩ := mem_boundPlans_iff.1 hplan
  exact ⟨a, _, _, ha, action?_repaired_of_orphan horphan hkept ha,
    Binding.boundBy_trigger _ _, Binding.reports_record _ id _⟩

/-- The ids that are left once some are removed. -/
theorem map_id_filter_not_contains (actions : List Action) (ids : List String) :
    (actions.filter fun a => !ids.contains a.id).map (·.id)
      = (actions.map (·.id)).filter (· ∉ ids) := by
  rw [List.filter_map]
  simp [Function.comp_def]

/-- The log of repair is an exact account of it: one record for every id whose
actions are removed, in ascending order, one for every orphan that stays, in
their order and by the rule of the trigger that it gets, one for every
normalizer and one for every mirror that is made. It is empty iff repair changes
nothing. -/
theorem log_repair (m : Mutation) (prior : Option Snapshot)
    (config : Configuration) :
    let v : View := ⟨m, prior⟩
    let out := v.repair v.reachability config
    (∃ gone normalizers mirrors,
        v.Account config ⟨out.mutation, prior⟩ out.log gone normalizers mirrors)
      ∧ (out.log = [] ↔ out.mutation = m) := by
  intro v out
  refine ⟨?_, mutation_eq_of_log_eq_nil, log_eq_nil_of_mutation_eq⟩
  obtain ⟨normalizers, mirrors, hsynthesis, hview, hlog⟩ :=
    exists_log_repair v config
  -- the log names ids, and binding keeps those that the removal left
  have hrewires :
      Rewires _ (v.removeActions (v.redundantIds v.reachability))
        (v.settled config) :=
    rewires_settle v v.reachability config
  have hmutation : out.mutation
      = ((v.settled config).addActions (normalizers ++ mirrors)).mutation :=
    congrArg View.mutation hview
  have hidsAdded : (v.settled config).mutation.actionsAdded.map Action.id = _ :=
    map_key_of_forall₂ (fun _ _ => Action.Retriggered.id_eq)
      hrewires.actionsAdded
  have hidsUpdated :
      (v.settled config).mutation.actionsUpdated.map Action.id = _ :=
    map_key_of_forall₂ (fun _ _ => Action.Retriggered.id_eq)
      hrewires.actionsUpdated
  refine ⟨v.redundantIds v.reachability, normalizers, mirrors, ?_⟩
  exact {
    ascending := KeySet.ascending _
    mem_gone := fun id => mem_redundantIds
    -- what is made stands behind the actions that were there
    actionsAdded := by
      rw [hmutation]
      exact ⟨_, rfl, hidsAdded.trans (map_id_filter_not_contains _ _)⟩
    actionsUpdated := by
      rw [hmutation]
      exact hidsUpdated.trans (map_id_filter_not_contains _ _)
    synthesis := hsynthesis
    -- the four parts of the log, in the order in which repair runs
    log := ⟨_, _, _, _, hlog, by
        rw [List.forall₂_map_right_iff, List.forall₂_same]
        exact fun id _ => ⟨rfl, rfl, rfl⟩,
      forall₂_reportsBinding v config,
      forall₂_reports_zipWith (fun _ _ => ⟨rfl, rfl, rfl⟩)
      hsynthesis.normalizersMade,
      forall₂_reports_zipWith (fun _ _ => ⟨rfl, rfl, rfl⟩)
      hsynthesis.mirrorsMade⟩ }

/-- A mirror goes, two calls run on the load of a page and an action on a
change, and a normalizer is made, in turn. -/
example : (orderDesk.repair orderDesk.reachability .default).log.map
    (fun r => (r.rule, r.actionId))
    = [(.removeRedundantStatusSetter, some "mirror_orders_status"),
      (.bindPageLoad, some "fetch_orders"),
      (.bindPageLoad, some "fetch_totals"), (.bindStateChange, some "show"),
      (.synthesizeNormalizer, some "normalize_totals_2")] := by
  decide +kernel

end View

end IntentGraph
