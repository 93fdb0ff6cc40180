import IntentGraph.Proofs.Identifier
import IntentGraph.Proofs.Reachability
import IntentGraph.Proofs.Related
import IntentGraph.Repair

/-!
# Addition of synthetic actions

Synthesis only appends actions under ids that nothing has. `View.addActions` is
such an addition, `View.Fresh` says what makes it harmless: an id stands for
what it stood for, and everything that could run still can.

* `View.action?_addActions`: the frame of an addition;
* `exists_addSynthetic`: a run of additions, one for every plan, is one addition
  of fresh actions;
* `Repairing.exists_synthesize`: both synthesis stages together are one
  addition.
-/

namespace IntentGraph

/-! ## Adding actions -/

namespace View

/-- The view with actions added to the mutation. -/
def addActions (v : View) (added : List Action) : View :=
  ⟨{ v.mutation with
    actionsAdded := v.mutation.actionsAdded ++ added }, v.prior⟩

/-- Actions whose ids are new to a view, and different. -/
structure Fresh (v : View) (added : List Action) : Prop where
  not_mem : ∀ a ∈ added, a.id ∉ v.actionIds
  nodup : (added.map (·.id)).Nodup

variable {v : View} {added added' : List Action}

theorem Fresh.nil (v : View) : v.Fresh [] := ⟨by simp, by simp⟩

@[simp] theorem addActions_nil (v : View) : v.addActions [] = v := by
  simp [addActions]

theorem addActions_append (v : View) (added added' : List Action) :
    v.addActions (added ++ added')
      = (v.addActions added).addActions added' := by
  simp [addActions]

theorem mem_mutation_addActions {a : Action} :
    a ∈ (v.addActions added).mutation.actions ↔ a ∈ v.mutation.actions
      ∨ a ∈ added := by
  simp only [addActions, Mutation.actions, List.mem_append]
  tauto

/-- What is new is found after all that was there. -/
theorem action?_addActions (fresh : v.Fresh added) (id : String) :
    (v.addActions added).action? id
      = (v.action? id).or (added.find? (·.id == id)) := by
  have hold : v.action? id = ((v.mutation.actionsAdded.find? (·.id == id)).or
      (v.mutation.actionsUpdated.find? (·.id == id))).or
        (v.priorActions.find? (·.id == id)) := by
    rw [action?_eq, Mutation.action?, Mutation.actions, List.find?_append]
  have hnew : (v.addActions added).action? id
      = (((v.mutation.actionsAdded.find? (·.id == id)).or
        (added.find? (·.id == id))).or
        (v.mutation.actionsUpdated.find? (·.id == id))).or
        (v.priorActions.find? (·.id == id)) := by
    rw [action?_eq, Mutation.action?, Mutation.actions, List.find?_append]
    show ((List.find? _ (v.mutation.actionsAdded ++ added)).or _).or _ = _
    rw [List.find?_append]
    rfl
  cases hadded : added.find? (·.id == id) with
  | none => rw [hnew, hold, hadded, Option.or_none, Option.or_none]
  | some b =>
    -- the id is new, so nothing that was there has it
    have hid : b.id = id := by simpa using List.find?_some hadded
    have hnone : v.action? id = none := by
      have hfresh := fresh.not_mem b (List.mem_of_find?_eq_some hadded)
      rw [hid, mem_actionIds] at hfresh
      simpa using hfresh
    rw [hnone] at hold
    have hparts := hold.symm
    simp only [Option.or_eq_none_iff] at hparts
    rw [hnew, hnone, hparts.1.1, hparts.1.2, hparts.2, hadded]
    rfl

/-- What an id stood for it still stands for. -/
theorem action?_addActions_of_some (fresh : v.Fresh added)
    {id : String} {a : Action} (h : v.action? id = some a) :
    (v.addActions added).action? id = some a := by
  rw [action?_addActions fresh, h, Option.some_or]

theorem mem_actions_addActions (fresh : v.Fresh added) {a : Action} :
    a ∈ (v.addActions added).actions ↔ a ∈ v.actions ∨ a ∈ added := by
  rw [mem_actions, mem_actions, action?_addActions fresh]
  constructor
  · intro h
    rcases Option.or_eq_some_iff.1 h with hold | ⟨_, hnew⟩
    · exact .inl hold
    · exact .inr (List.mem_of_find?_eq_some hnew)
  · rintro (hold | hnew)
    · rw [hold, Option.some_or]
    · have hnone : v.action? a.id = none := by
        have hfresh := fresh.not_mem a hnew
        rw [mem_actionIds] at hfresh
        simpa using hfresh
      rw [hnone, Option.none_or]
      exact find?_eq_some_of_nodup fresh.nodup hnew

theorem mem_actionIds_addActions (fresh : v.Fresh added) {id : String} :
    id ∈ (v.addActions added).actionIds ↔ id ∈ v.actionIds
      ∨ id ∈ added.map (·.id) := by
  rw [mem_actionIds, mem_actionIds, action?_addActions fresh, Option.isSome_or,
    Bool.or_eq_true, isSome_find?_iff]

/-- An addition after an addition is one addition. -/
theorem Fresh.append (fresh : v.Fresh added)
    (fresh' : (v.addActions added).Fresh added') :
    v.Fresh (added ++ added') where
  not_mem a ha := by
    rcases List.mem_append.1 ha with ha | ha
    · exact fresh.not_mem a ha
    · have hnot := fresh'.not_mem a ha
      rw [mem_actionIds_addActions fresh] at hnot
      exact fun h => hnot (.inl h)
  nodup := by
    rw [List.map_append, List.nodup_append']
    refine ⟨fresh.nodup, fresh'.nodup, ?_⟩
    intro id hid hid'
    obtain ⟨a, ha, rfl⟩ := List.mem_map.1 hid'
    exact fresh'.not_mem a ha ((mem_actionIds_addActions fresh).2 (.inr hid))

/-- Different ids stay different. -/
theorem Fresh.nodup_addActions (fresh : v.Fresh added)
    (hnodup : (v.mutation.actions.map (·.id)).Nodup) :
    ((v.addActions added).mutation.actions.map (·.id)).Nodup := by
  have hperm :
      (v.addActions added).mutation.actions.Perm
        (v.mutation.actions ++ added) := by
    simp only [addActions, Mutation.actions, List.append_assoc]
    exact List.perm_append_comm.append_left _
  rw [(hperm.map _).nodup_iff, List.map_append, List.nodup_append']
  refine ⟨hnodup, fresh.nodup, fun id hold hnew => ?_⟩
  obtain ⟨a, ha, rfl⟩ := List.mem_map.1 hold
  obtain ⟨b, hb, hba⟩ := List.mem_map.1 hnew
  exact fresh.not_mem b hb (hba ▸ id_mem_actionIds ha)

/-- An addition takes away nothing that makes an action run. -/
theorem KeepsRunning.addActions (fresh : v.Fresh added) (id : String) :
    KeepsRunning v (v.addActions added) id where
  action a ha := ⟨a, action?_addActions_of_some fresh ha, List.Subset.refl _⟩
  component c hc := ⟨c, hc, rfl, fun h => h⟩
  page p hp := ⟨p, hp, fun h => h⟩

/-- A new action with a trigger of its own is a root. -/
theorem mem_roots_addActions (fresh : v.Fresh added) {a : Action}
    (ha : a ∈ added) {t : Trigger} (ht : t ∈ a.triggeredBy)
    (hroot : ∀ w : View, w.isRootTrigger t = true) :
    a.id ∈ (v.addActions added).roots := by
  have hmem : a ∈ (v.addActions added).actions :=
    (mem_actions_addActions fresh).2 (.inr ha)
  exact mem_roots.2 ⟨List.mem_map_of_mem hmem,
    .inr ⟨a, mem_actions.1 hmem, t, ht, hroot _⟩⟩

/-- Whatever was read is read. -/
theorem isConsumed_addActions (fresh : v.Fresh added) {key except : String}
    (h : v.isConsumed key except = true) :
    (v.addActions added).isConsumed key except = true := by
  rw [isConsumed_iff] at h ⊢
  refine h.imp_right ?_
  rintro ⟨a, ha, hread⟩
  exact ⟨a, (mem_actions_addActions fresh).2 (.inl ha), hread⟩

/-- A new action reads for those that were there. -/
theorem isConsumed_of_added (fresh : v.Fresh added) {a b : Action}
    {key : String} (hb : b ∈ added) (hread : key ∈ b.readKeys)
    (ha : a ∈ v.mutation.actions) :
    (v.addActions added).isConsumed key a.id = true := by
  have hne : b.id ≠ a.id :=
    fun h => fresh.not_mem b hb (h ▸ id_mem_actionIds ha)
  exact isConsumed_iff.2
    (.inr ⟨b, (mem_actions_addActions fresh).2 (.inr hb), hne, hread⟩)

end View

/-! ## What is made -/

/-- A normalizer writes the key that its result is normalized into. -/
theorem UnreadOutput.mutatedKeys_normalizer (o : UnreadOutput) (id : String) :
    (o.normalizer id).mutatedKeys = KeySet.ofList [Key.derived o.key] := rfl

/-- A mirror writes the keys that its components read. -/
theorem MirrorPlan.mutatedKeys_mirror (p : MirrorPlan) (id : String) :
    (p.mirror id).mutatedKeys = KeySet.ofList [p.uiStatus, p.uiError] := rfl

/-! ## A run of additions -/

/-- An action that was made from a plan, under its own id, which is
canonical. -/
def MadeFrom {α : Type} (make : α → String → Action) (plan : α)
    (a : Action) : Prop :=
  a = make plan a.id ∧ IsCanonical a.id

/-- Some action that was made is such iff some plan is for such an action. -/
theorem exists_made_iff {α : Type} {make : α → String → Action}
    {P : Action → Prop} {Q : α → Prop} {plans : List α} {made : List Action}
    (h : List.Forall₂ (MadeFrom make) plans made)
    (hmake : ∀ plan id, P (make plan id) ↔ Q plan) :
    (∃ a ∈ made, P a) ↔ ∃ plan ∈ plans, Q plan := by
  constructor
  · rintro ⟨a, ha, hp⟩
    obtain ⟨plan, hplan, heq, _⟩ := mem_right_of_forall₂ h ha
    rw [heq, hmake] at hp
    exact ⟨plan, hplan, hp⟩
  · rintro ⟨plan, hplan, hq⟩
    obtain ⟨a, ha, heq, _⟩ := mem_left_of_forall₂ h hplan
    refine ⟨a, ha, ?_⟩
    rw [heq, hmake]
    exact hq

namespace Repairing

/-- A run of additions, one for every plan, is one addition of fresh actions. -/
theorem exists_addSynthetic {α : Type} (prior : Option Snapshot)
    (base : α → String) (make : α → String → Action)
    (record : α → String → AuditRecord)
    (hid : ∀ plan id, (make plan id).id = id) (plans : List α) (r : Repairing) :
    ∃ added r', plans.foldl (fun r plan =>
        r.addSynthetic prior (base plan) (make plan) (record plan)) r = r'
      ∧ r'.view prior = (r.view prior).addActions added
      ∧ (r.view prior).Fresh added
      ∧ List.Forall₂ (MadeFrom make) plans added
      ∧ r'.log = r.log ++ List.zipWith (fun plan a => record plan a.id)
        plans added := by
  induction plans generalizing r with
  | nil =>
    exact ⟨[], r, rfl, (View.addActions_nil _).symm, .nil _, .nil, by simp⟩
  | cons plan plans ih =>
    -- the first addition alone is fresh, and the others are fresh to the view
    -- with it in place
    let id := freshId (r.view prior).actionIds (base plan)
    let a := make plan id
    have ha : a.id = id := hid plan id
    have fresh : (r.view prior).Fresh [a] := by
      refine ⟨fun b hb => ?_, by simp⟩
      rw [List.mem_singleton.1 hb, ha]
      exact freshId_not_mem _ _
    have hmade : MadeFrom make plan a :=
      ⟨by rw [ha], ha ▸ isCanonical_freshId _ _⟩
    obtain ⟨added, r', hr', hview, fresh', hmades, hlog⟩ :=
      ih (r.addSynthetic prior (base plan) (make plan) (record plan))
    refine ⟨a :: added, r', hr', ?_, fresh.append fresh',
      .cons hmade hmades, ?_⟩
    · rw [hview]
      exact (View.addActions_append (r.view prior) [a] added).symm
    · rw [hlog, List.zipWith_cons_cons, ha]
      simp [addSynthetic, id]

/-- After a run of additions an action is an old one, or was made for a plan
under a fresh id. -/
theorem mem_actions_foldl_addSynthetic {α : Type} {prior : Option Snapshot}
    {base : α → String} {make : α → String → Action}
    {record : α → String → AuditRecord} {plans : List α}
    {r : Repairing} {a : Action}
    (ha : a ∈ (plans.foldl (fun r plan =>
      r.addSynthetic prior (base plan) (make plan) (record plan))
      r).mutation.actions) :
    a ∈ r.mutation.actions
      ∨ ∃ plan ∈ plans, ∃ taken, a = make plan (freshId taken (base plan)) := by
  induction plans generalizing r with
  | nil => exact .inl ha
  | cons plan plans ih =>
    rcases ih ha with hold | ⟨later, hlater, hmade⟩
    · rcases View.mem_mutation_addActions (v := r.view prior) |>.1 hold
        with hold | hnew
      · exact .inl hold
      · exact .inr ⟨plan, List.mem_cons_self, _, List.mem_singleton.1 hnew⟩
    · exact .inr ⟨later, List.mem_cons_of_mem _ hlater, hmade⟩

end Repairing

/-! ## Both synthesis stages -/

namespace View

/-- The results that get a normalizer. -/
def plannedNormalizers (v : View) (config : Configuration) :
    List UnreadOutput :=
  if config.repair.synthesizeNormalizers then
    v.unreadOutputs config.effectOnlyPrefixes
  else []

/-- The mirrors that are made. -/
def plannedMirrors (v : View) (config : Configuration) : List MirrorPlan :=
  if config.repair.synthesizeStatusMirrors then v.mirrorPlans else []

/-- Fresh actions made for what is planned, the mirrors with the normalizers in
place. -/
structure Synthesis (v : View) (config : Configuration)
    (normalizers mirrors : List Action) : Prop where
  freshNormalizers : v.Fresh normalizers
  normalizersMade :
    List.Forall₂ (MadeFrom UnreadOutput.normalizer)
      (v.plannedNormalizers config) normalizers
  freshMirrors : (v.addActions normalizers).Fresh mirrors
  mirrorsMade : List.Forall₂ (MadeFrom MirrorPlan.mirror)
    ((v.addActions normalizers).plannedMirrors config) mirrors

namespace Synthesis

variable {v : View} {config : Configuration} {normalizers mirrors : List Action}

theorem fresh (h : v.Synthesis config normalizers mirrors) :
    v.Fresh (normalizers ++ mirrors) :=
  h.freshNormalizers.append h.freshMirrors

/-- What is added is a normalizer or a mirror. -/
theorem made (h : v.Synthesis config normalizers mirrors) {a : Action}
    (ha : a ∈ normalizers ++ mirrors) :
    (∃ o, MadeFrom UnreadOutput.normalizer o a)
      ∨ ∃ p, MadeFrom MirrorPlan.mirror p a := by
  rcases List.mem_append.1 ha with ha | ha
  · obtain ⟨o, _, ho⟩ := mem_right_of_forall₂ h.normalizersMade ha
    exact .inl ⟨o, ho⟩
  · obtain ⟨p, _, hp⟩ := mem_right_of_forall₂ h.mirrorsMade ha
    exact .inr ⟨p, hp⟩

/-- Nothing that is added calls an integration. -/
theorem kind_ne (h : v.Synthesis config normalizers mirrors) {a : Action}
    (ha : a ∈ normalizers ++ mirrors) : a.kind ≠ .integrationCall := by
  rcases h.made ha with ⟨o, hmade, _⟩ | ⟨p, hmade, _⟩ <;> rw [hmade]
    <;> exact nofun

/-- What is added runs by itself. -/
theorem mem_roots (h : v.Synthesis config normalizers mirrors) {a : Action}
    (ha : a ∈ normalizers ++ mirrors) :
    a.id ∈ (v.addActions (normalizers ++ mirrors)).roots := by
  rcases h.made ha with ⟨o, hmade, _⟩ | ⟨p, hmade, _⟩
  · have ht : Trigger.stateChange o.key ∈ a.triggeredBy := by
      rw [hmade]
      exact List.mem_singleton_self _
    exact mem_roots_addActions h.fresh ha ht fun _ => rfl
  · have ht : Trigger.stateChange p.status ∈ a.triggeredBy := by
      rw [hmade]
      exact List.mem_cons_self
    exact mem_roots_addActions h.fresh ha ht fun _ => rfl

end Synthesis

end View

namespace Repairing

/-- The stages that make actions. -/
def synthesize (r : Repairing) (prior : Option Snapshot)
    (config : Configuration) : Repairing :=
  let normalized :=
    if config.repair.synthesizeNormalizers then
      r.addNormalizers prior config.effectOnlyPrefixes
    else r
  if config.repair.synthesizeStatusMirrors then normalized.addMirrors prior
    else normalized

/-- The stages as runs of additions, for what is planned. -/
theorem synthesize_eq (r : Repairing) (prior : Option Snapshot)
    (config : Configuration) :
    r.synthesize prior config =
      let normalized := ((r.view prior).plannedNormalizers config).foldl
        (fun r o => r.addSynthetic prior o.idBase o.normalizer o.record) r
      ((normalized.view prior).plannedMirrors config).foldl
        (fun r p => r.addSynthetic prior p.idBase p.mirror p.record)
        normalized := by
  simp only [synthesize, View.plannedNormalizers, View.plannedMirrors]
  cases config.repair.synthesizeNormalizers
    <;> cases config.repair.synthesizeStatusMirrors <;> rfl

/-- Synthesis adds fresh actions, the normalizers and with them in place the
mirrors, and leaves a record of each. -/
theorem exists_synthesize (r : Repairing) (prior : Option Snapshot)
    (config : Configuration) :
    ∃ normalizers mirrors, (r.view prior).Synthesis config normalizers mirrors
      ∧ (((r.view prior).plannedNormalizers config).foldl
          (fun r o => r.addSynthetic prior o.idBase o.normalizer o.record)
          r).view prior
        = (r.view prior).addActions normalizers
      ∧ (r.synthesize prior config).view prior
        = (r.view prior).addActions (normalizers ++ mirrors)
      ∧ (r.synthesize prior config).log = r.log
        ++ List.zipWith (fun o a => o.record a.id)
          ((r.view prior).plannedNormalizers config) normalizers
        ++ List.zipWith (fun p a => p.record a.id)
          (((r.view prior).addActions normalizers).plannedMirrors config)
          mirrors := by
  obtain ⟨normalizers, normalized, hn, hview, fresh, hmade, hlog⟩ :=
    exists_addSynthetic prior UnreadOutput.idBase UnreadOutput.normalizer
      UnreadOutput.record (fun _ _ => rfl)
      ((r.view prior).plannedNormalizers config) r
  obtain ⟨mirrors, r', hm, hview', fresh', hmade', hlog'⟩ :=
    exists_addSynthetic prior MirrorPlan.idBase MirrorPlan.mirror
      MirrorPlan.record (fun _ _ => rfl)
      ((normalized.view prior).plannedMirrors config) normalized
  have hsynthesized : r.synthesize prior config = r' := by
    rw [synthesize_eq]
    show ((Repairing.view _ prior).plannedMirrors config).foldl _ _ = r'
    rw [hn, hm]
  refine ⟨normalizers, mirrors,
    ⟨fresh, hmade, hview ▸ fresh', hview ▸ hmade'⟩, ?_, ?_, ?_⟩
  · rw [hn, hview]
  · rw [View.addActions_append, ← hview, ← hview', hsynthesized]
  · rw [hsynthesized, hlog', hlog, hview]

/-- An action that synthesis adds has a fresh id made from the base of a
normalizer or a mirror. -/
theorem mem_actions_synthesize {r : Repairing} {prior : Option Snapshot}
    {config : Configuration} {a : Action}
    (ha : a ∈ (r.synthesize prior config).mutation.actions) :
    a ∈ r.mutation.actions
      ∨ (∃ (o : UnreadOutput) (taken : List String),
        a.id = freshId taken o.idBase)
      ∨ ∃ (p : MirrorPlan) (taken : List String),
        a.id = freshId taken p.idBase := by
  rw [synthesize_eq] at ha
  rcases mem_actions_foldl_addSynthetic ha with ha | ⟨p, _, taken, rfl⟩
  · rcases mem_actions_foldl_addSynthetic ha with ha | ⟨o, _, taken, rfl⟩
    · exact .inl ha
    · exact .inr (.inl ⟨o, taken, rfl⟩)
  · exact .inr (.inr ⟨p, taken, rfl⟩)

/-- Without a plan there is nothing to make. -/
theorem synthesize_eq_self {r : Repairing} {prior : Option Snapshot}
    {config : Configuration}
    (hnormalizers : (r.view prior).plannedNormalizers config = [])
    (hmirrors : (r.view prior).plannedMirrors config = []) :
    r.synthesize prior config = r := by
  simp only [synthesize_eq, hnormalizers, List.foldl_nil, hmirrors]

end Repairing

end IntentGraph
