import IntentGraph.Proofs.Repair.Addition
import IntentGraph.Proofs.Repair.Binding
import IntentGraph.Proofs.Repair.Choice

/-!
# Repair leaves no orphan

Repair is a removal, a rewiring and an addition, in this order
(`View.exists_repair`). None of them takes away what makes an action run that
stays, and each action that could not run before is removed or bound
(`View.mem_boundPlans`). So every action of a repaired mutation is a root of its
view, and the analysis of it finds no orphan: `View.closed_repair`.
-/

namespace IntentGraph

/-! ## The stages -/

namespace View

/-- The stages that remove redundant actions and bind orphans. -/
def settle (v : View) (reach : Reachability) (config : Configuration) :
    Repairing :=
  let start : Repairing := ⟨v.mutation, []⟩
  (start.removeRedundant v.prior reach).bindOrphans v.prior reach
  (v.redundantIds reach)
    config.repair.safetyNetReason

/-- The orphans that are bound once the redundant actions are removed. -/
def boundPlans (v : View) (reach : Reachability) : List (String × Binding) :=
  (v.removeActions (v.redundantIds reach)).bindingPlans reach
    (v.redundantIds reach)

/-- A plan is for an action of the mutation that is left, and is what is chosen
for it. -/
theorem exists_of_mem_boundPlans {v : View} {reach : Reachability}
    {plan : String × Binding} (h : plan ∈ v.boundPlans reach) :
    ∃ a ∈ (v.removeActions (v.redundantIds reach)).mutation.actions,
      plan
        = (a.id, (v.removeActions (v.redundantIds reach)).chooseBinding a) := by
  rw [boundPlans, bindingPlans] at h
  obtain ⟨a, ha, rfl⟩ := List.mem_map.1 h
  obtain ⟨_, _, hfound⟩ := List.mem_filterMap.1 ha
  exact ⟨a, List.mem_of_find?_eq_some hfound, rfl⟩

/-- A plan is for an orphan that stays, and is what is chosen for the action
that its id stands for. -/
theorem mem_boundPlans_iff {v : View} {id : String} {b : Binding} :
    (id, b) ∈ v.boundPlans v.reachability ↔
      id ∈ v.reachability.orphans ∧ id ∉ v.redundantIds v.reachability
        ∧ ∃ a, v.action? id = some a ∧ v.chooseBinding a = b := by
  have hfound : ∀ {j : String}, j ∈ v.reachability.orphans →
      j ∉ v.redundantIds v.reachability →
      (v.removeActions (v.redundantIds v.reachability)).mutation.action? j
        = v.action? j := by
    intro j horphan hkept
    rw [removeActions, Mutation.action?_removeActions hkept,
      action?_of_mem (mem_orphans.1 horphan).1]
  simp only [boundPlans, bindingPlans, List.mem_map, List.mem_filterMap,
    List.mem_filter, Bool.not_eq_true', ← Bool.not_eq_true,
    List.contains_iff_mem, Prod.mk.injEq, chooseBinding_removeActions]
  constructor
  · rintro ⟨a, ⟨j, ⟨horphan, hkept⟩, ha⟩, rfl, hb⟩
    rw [hfound horphan hkept] at ha
    obtain rfl := id_of_action? ha
    exact ⟨horphan, hkept, a, ha, hb⟩
  · rintro ⟨horphan, hkept, a, ha, hb⟩
    exact ⟨a, ⟨id, ⟨horphan, hkept⟩, (hfound horphan hkept).trans ha⟩,
      id_of_action? ha, hb⟩

/-- The view after the repair of its mutation. -/
def repaired (v : View) (reach : Reachability) (config : Configuration) :
    View :=
  (v.repair reach config).view v.prior

variable {v : View} {reach : Reachability} {config : Configuration}

theorem repair_eq (v : View) (reach : Reachability) (config : Configuration) :
    v.repair reach config = (v.settle reach config).synthesize v.prior config :=
  rfl

/-- The branch for no redundant actions is no special case. -/
theorem view_removeRedundant (v : View) (reach : Reachability) :
    (Repairing.removeRedundant ⟨v.mutation, []⟩ v.prior reach).view v.prior
      = v.removeActions (v.redundantIds reach) := by
  rw [Repairing.removeRedundant]
  split
  · next hempty =>
    have hnil : (v.redundantIds reach).members = [] := List.isEmpty_iff.1 hempty
    rw [hnil, removeActions, Mutation.removeActions_nil]
    rfl
  · rfl

theorem view_settle (v : View) (reach : Reachability) (config : Configuration) :
    (v.settle reach config).view v.prior
      = ⟨(v.removeActions (v.redundantIds reach)).mutation.bindAll v.prior
          config.repair.safetyNetReason (v.boundPlans reach), v.prior⟩ := by
  rw [boundPlans, ← view_removeRedundant]
  rfl

/-- The stages before synthesis are a removal and a rewiring. -/
theorem rewires_settle (v : View) (reach : Reachability)
    (config : Configuration) :
    Rewires ((v.boundPlans reach).map (·.1))
      (v.removeActions (v.redundantIds reach))
      ((v.settle reach config).view v.prior) := by
  rw [view_settle]
  exact rewires_bindAll _ _ _

/-- Repair is a removal, a rewiring and an addition. -/
theorem exists_repair (v : View) (reach : Reachability)
    (config : Configuration) :
    ∃ settled normalizers mirrors,
      settled = (v.settle reach config).view v.prior
      ∧ Rewires ((v.boundPlans reach).map (·.1))
        (v.removeActions (v.redundantIds reach)) settled
      ∧ settled.Synthesis config normalizers mirrors
      ∧ v.repaired reach config
        = settled.addActions (normalizers ++ mirrors) := by
  obtain ⟨normalizers, mirrors, hsynthesis, _, hview, _⟩ :=
    (v.settle reach config).exists_synthesize v.prior config
  exact ⟨_, normalizers, mirrors, rfl, rewires_settle v reach config,
    hsynthesis, hview⟩

/-- The ids of a repaired mutation are canonical if those of the mutation
were. -/
theorem isCanonical_repaired (v : View) (reach : Reachability)
    (config : Configuration)
    (hcanonical : ∀ a ∈ v.mutation.actions, IsCanonical a.id) {a : Action}
    (ha : a ∈ (v.repaired reach config).mutation.actions) :
    IsCanonical a.id := by
  obtain ⟨settled, normalizers, mirrors, _, hrewires, hsynthesis, hview⟩ :=
    exists_repair v reach config
  rw [hview] at ha
  rcases mem_mutation_addActions.1 ha with hold | hnew
  · obtain ⟨b, hb, hba⟩ := mem_right_of_forall₂ hrewires.actions hold
    rw [hba.id_eq]
    exact hcanonical b (Mutation.mem_actions_removeActions.1 hb).1
  · rcases hsynthesis.made hnew with ⟨_, _, hid⟩ | ⟨_, _, hid⟩ <;> exact hid

/-! ## Closure -/

/-- What was not removed and could not run is bound. -/
theorem mem_boundPlans {id : String}
    (hkept : id ∉ v.redundantIds v.reachability)
    (hid : id ∈ v.mutation.actions.map (·.id)) (hroot : id ∉ v.roots) :
    id ∈ (v.boundPlans v.reachability).map (·.1) := by
  obtain ⟨a, ha⟩ := Option.isSome_iff_exists.1 (Mutation.action?_isSome.2 hid)
  have hfound : v.action? id = some a := (action?_of_mem hid).trans ha
  have horphan : id ∈ v.reachability.orphans := mem_orphans.2 ⟨hid, hroot⟩
  exact List.mem_map.2
    ⟨_, mem_boundPlans_iff.2 ⟨horphan, hkept, a, hfound, rfl⟩, rfl⟩

/-- Every action that is left before synthesis is a root. -/
theorem closed_settle (v : View) (config : Configuration) :
    ((v.settle v.reachability config).view v.prior).Closed := by
  have hrewires := rewires_settle v v.reachability config
  intro a ha
  have hid : a.id
      ∈ (v.removeActions (v.redundantIds v.reachability)).mutation.actions.map
        (·.id) := by
    rw [← hrewires.map_id]
    exact List.mem_map_of_mem ha
  obtain ⟨b, hb, hba⟩ := List.mem_map.1 hid
  obtain ⟨hmem, hkept⟩ := Mutation.mem_actions_removeActions.1 hb
  rw [hba] at hkept
  by_cases hroot : a.id ∈ v.roots
  · -- it could run before, and neither stage stops it
    have hstays := (KeepsRunning.removeActions hkept).mem_roots hroot
    exact (hrewires.keepsRunning a.id).mem_roots hstays
  · have hplan := mem_boundPlans hkept (hba ▸ List.mem_map_of_mem hmem) hroot
    rw [view_settle]
    exact mem_roots_bindAll hplan hid

/-- Every action of a repaired mutation is a root. -/
theorem closed_repair (v : View) (config : Configuration) :
    (v.repaired v.reachability config).Closed := by
  obtain ⟨settled, normalizers, mirrors, hsettled, _, hsynthesis, hview⟩ :=
    exists_repair v v.reachability config
  rw [hview]
  intro a ha
  rcases mem_mutation_addActions.1 ha with hold | hnew
  · have hroot : a.id ∈ settled.roots :=
      hsettled ▸ closed_settle v config a (hsettled ▸ hold)
    exact (KeepsRunning.addActions hsynthesis.fresh a.id).mem_roots hroot
  · exact hsynthesis.mem_roots hnew

/-- After repair the analysis finds no orphan, whatever the mutation, the
snapshot and the configuration are. -/
theorem orphans_repair (m : Mutation) (prior : Option Snapshot)
    (config : Configuration) :
    let v : View := ⟨m, prior⟩
    let out := (v.repair v.reachability config).mutation
    (View.mk out prior).reachability.orphans = [] :=
  orphans_eq_nil.2 (closed_repair ⟨m, prior⟩ config)

end View

end IntentGraph
