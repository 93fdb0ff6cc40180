import IntentGraph.Proofs.Repair.Frame
import IntentGraph.Proofs.Repair.Loop

/-!
# Which keys repair binds to

An orphan whose templates refer to state keys is made to wait for one of them.
That is of use if the key is live: another action writes it, a component does,
or the state has it to begin with (`View.LiveFor`). Repair does not look whether
it is; it takes the least key that the templates refer to.

* `View.exists_settled`: an action that stays gets one trigger at most, and
  waits for what was planned;
* `View.bindsTo_iff`: which orphans are bound to which keys;
* `View.BindsTo.eq_of_wakes`: a bound orphan whose key is not live is woken by
  nothing that was there before, except by itself.
-/

namespace IntentGraph

namespace View

variable {v : View} {config : Configuration} {id key : String} {a : Action}

/-! ## Live keys -/

/-- A key can change without the action of an id: another action writes it, a
component does, or the state has it to begin with. -/
def LiveFor (v : View) (id key : String) : Prop :=
  (∃ a ∈ v.actions, a.id ≠ id ∧ key ∈ a.mutatedKeys)
    ∨ (∃ c ∈ v.components, key ∈ c.ownWrites)
    ∨ v.state.contains key = true

instance (v : View) (id key : String) : Decidable (v.LiveFor id key) := by
  unfold LiveFor
  infer_instance

/-! ## What becomes of an action that stays -/

/-- A run of bindings for different ids gives an action one trigger at most. -/
theorem rel_boundOnce_bindAll {m : Mutation} {prior : Option Snapshot}
    {reason : String} {plans : List (String × Binding)}
    (hnodup : (plans.map (·.1)).Nodup) (id : String) :
    Option.Rel (Action.BoundOnce (plans.map (·.1)))
      ((View.mk m prior).action? id)
      ((View.mk (m.bindAll prior reason plans) prior).action? id) := by
  have hbound : m.Rebound (Action.BoundOnce (plans.map (·.1))) (plans.map (·.1))
      ((prior.map Snapshot.pages).getD []) (m.bindAll prior reason plans) :=
    rebound_bindAll m reason hnodup (List.Subset.refl _)
  rw [action?_eq, action?_eq]
  exact rel_or (rel_find?_of_forall₂ Action.id (fun _ _ h => h.id_eq)
    (List.rel_append hbound.actionsAdded hbound.actionsUpdated) id)
    (rel_refl (Action.BoundOnce.refl _) _)

/-- An action that stays gets one trigger at most, and waits for the keys that
it is bound to. -/
theorem exists_settled (v : View) (config : Configuration)
    (ha : v.action? id = some a) (hkept : id ∉ v.redundantIds v.reachability) :
    ∃ a', (v.settled config).action? id = some a'
      ∧ a.BoundOnce ((v.boundPlans v.reachability).map (·.1)) a'
      ∧ a.WaitsAlso (fun key => (id, .stateChange key)
        ∈ v.boundPlans v.reachability) a' := by
  have hnodup := (sublist_boundPlans v v.reachability).nodup v.nodup_orphans
  have hleft := (action?_removeActions hkept).trans ha
  rw [settled, view_settle]
  obtain ⟨a', ha', honce⟩ :=
    exists_of_rel_left (rel_boundOnce_bindAll hnodup id) hleft
  obtain ⟨b, hb, hwaits⟩ :=
    exists_of_rel_left (rel_action?_bindAll boundPlans_subset id) hleft
  obtain rfl := Option.some.inj (ha'.symm.trans hb)
  exact ⟨a', ha', honce, hwaits⟩

/-! ## Keys that orphans are bound to -/

/-- Repair adds to an orphan that stays a trigger on the change of a key. -/
structure BindsTo (v : View) (config : Configuration)
    (id key : String) : Prop where
  orphan : id ∈ v.reachability.orphans
  kept : id ∉ v.redundantIds v.reachability
  bound : ∃ a, v.action? id = some a ∧ (v.settled config).action? id
    = some { a with triggeredBy := a.triggeredBy ++ [.stateChange key] }

theorem watchedKeys_eq_nil_of_orphan (ha : v.action? id = some a)
    (horphan : id ∈ v.reachability.orphans) : a.watchedKeys = [] :=
  watchedKeys_eq_nil (mem_actions_of_action? ha)
    (id_of_action? ha ▸ (mem_orphans.1 horphan).2)

/-- An orphan is bound to a key iff the key is the least that its templates
refer to. -/
theorem bindsTo_iff : v.BindsTo config id key ↔
    id ∈ v.reachability.orphans ∧ id ∉ v.redundantIds v.reachability
      ∧ ∃ a, v.action? id = some a ∧ key ∈ a.templatedKeys
        ∧ ∀ k ∈ a.templatedKeys, k ≠ key → key < k := by
  -- the plan of an orphan waits for the first of its sorted keys
  have hplan : ∀ {a : Action}, v.action? id = some a →
      ((id, .stateChange key) ∈ v.boundPlans v.reachability
        ↔ id ∈ v.reachability.orphans
        ∧ id ∉ v.redundantIds v.reachability ∧ key ∈ a.templatedKeys
        ∧ ∀ k ∈ a.templatedKeys, k ≠ key → key < k) := by
    intro a ha
    obtain rfl := id_of_action? ha
    rw [mem_boundPlans_stateChange (mem_actions_of_action? ha),
      KeySet.head?_eq_some_iff]
  constructor
  · -- an orphan waits for nothing, so what it waits for after repair was
    -- planned
    rintro ⟨horphan, hkept, a, ha, hbound⟩
    obtain ⟨a', ha', _, hwaits⟩ := exists_settled v config ha hkept
    obtain rfl := Option.some.inj (ha'.symm.trans hbound)
    have hkey := (hwaits.waits key).1 (Action.mem_watchedKeys.2 (by simp))
    rw [watchedKeys_eq_nil_of_orphan ha horphan] at hkey
    have hplanned := hkey.resolve_left List.not_mem_nil
    exact ⟨horphan, hkept, a, ha, ((hplan ha).1 hplanned).2.2⟩
  · -- a planned orphan gets exactly one trigger, and this one makes it wait
    rintro ⟨horphan, hkept, a, ha, hleast⟩
    obtain ⟨a', ha', honce, hwaits⟩ := exists_settled v config ha hkept
    have hkey :=
      (hwaits.waits key).2 (.inr ((hplan ha).2 ⟨horphan, hkept, hleast⟩))
    have hnone := watchedKeys_eq_nil_of_orphan ha horphan
    refine ⟨horphan, hkept, a, ha, ha'.trans (congrArg some ?_)⟩
    rcases honce with rfl | ⟨_, trigger, rfl⟩
    · -- it cannot have stayed as it was, since it now waits for the key
      rw [hnone] at hkey
      cases hkey
    · rcases List.mem_append.1 (Action.mem_watchedKeys.1 hkey) with hold | hnew
      · rw [← Action.mem_watchedKeys, hnone] at hold
        cases hold
      · rw [List.mem_singleton.1 hnew]

/-- What a bound orphan waits for after repair. -/
theorem BindsTo.wakes_iff (h : v.BindsTo config id key) {i : String} :
    (v.repaired v.reachability config).Wakes i id ↔
      ∃ b, (v.repaired v.reachability config).action? i = some b
        ∧ key ∈ b.mutatedKeys := by
  obtain ⟨horphan, _, a, ha, hbound⟩ := h
  obtain ⟨normalizers, mirrors, hsynthesis, _, hrepaired⟩ :=
    exists_synthesis v config
  have hfound := action?_addActions_of_some hsynthesis.fresh hbound
  rw [← hrepaired] at hfound
  -- an orphan waited for nothing, so the key that is added is all that it waits
  -- for
  have hwatched : ∀ k, k ∈ Action.watchedKeys
      { a with triggeredBy := a.triggeredBy ++ [.stateChange key] }
        ↔ k = key := by
    intro k
    have hnone : .stateChange k ∉ a.triggeredBy := by
      rw [← Action.mem_watchedKeys, watchedKeys_eq_nil_of_orphan ha horphan]
      exact List.not_mem_nil
    rw [Action.mem_watchedKeys, List.mem_append, or_iff_right hnone]
    simp
  constructor
  · rintro ⟨b, c, hb, hc, k, hwrites, hwaits⟩
    obtain rfl := Option.some.inj (hfound.symm.trans hc)
    exact ⟨b, hb, (hwatched k).1 hwaits ▸ hwrites⟩
  · rintro ⟨b, hb, hwrites⟩
    exact ⟨b, _, hb, hfound, key, hwrites, (hwatched key).2 rfl⟩

/-- If its key is not live, a bound orphan is woken only by itself, or by what
was not in the view before: an action that repair made, or one that came forth
when another was removed. -/
theorem BindsTo.eq_of_wakes (h : v.BindsTo config id key)
    (hdead : ¬ v.LiveFor id key) {i : String}
    (hwakes : (v.repaired v.reachability config).Wakes i id) :
    i = id ∨ i ∈ v.redundantIds v.reachability ∨ i ∉ v.actionIds := by
  by_contra hnot
  simp only [not_or, not_not] at hnot
  obtain ⟨hne, hkept, hid⟩ := hnot
  obtain ⟨b, hb, hwrites⟩ := h.wakes_iff.1 hwakes
  obtain ⟨c, hc⟩ := Option.isSome_iff_exists.1 (mem_actionIds.1 hid)
  obtain ⟨c', hc', _, hwaits⟩ := exists_settled v config hc hkept
  obtain ⟨normalizers, mirrors, hsynthesis, _, hrepaired⟩ :=
    exists_synthesis v config
  have hfound := action?_addActions_of_some hsynthesis.fresh hc'
  rw [← hrepaired, hb] at hfound
  rw [Option.some.inj hfound, hwaits.writes] at hwrites
  exact hdead (.inl ⟨c, mem_actions_of_action? hc,
    id_of_action? hc ▸ hne, hwrites⟩)

/-- Repair binds an orphan to the least key that its templates refer to. So it
binds to live keys only, iff all of those keys are live. If one is not, nothing
that was there before wakes the orphan after it, itself apart. -/
theorem binds_to_live_iff (m : Mutation) (prior : Option Snapshot)
    (config : Configuration) :
    let v : View := ⟨m, prior⟩
    (∀ id key, v.BindsTo config id key ↔
      id ∈ v.reachability.orphans ∧ id ∉ v.redundantIds v.reachability
        ∧ ∃ a, v.action? id = some a ∧ key ∈ a.templatedKeys
          ∧ ∀ k ∈ a.templatedKeys, k ≠ key → key < k)
    ∧ ((∀ id key, v.BindsTo config id key → v.LiveFor id key) ↔
      ∀ a ∈ v.actions, a.id ∈ v.reachability.orphans →
        a.id ∉ v.redundantIds v.reachability →
        ∀ key ∈ a.templatedKeys, (∀ k ∈ a.templatedKeys, k ≠ key → key < k) →
          v.LiveFor a.id key)
    ∧ ∀ id key, v.BindsTo config id key →
      (∀ i, (v.repaired v.reachability config).Wakes i id ↔
        ∃ b, (v.repaired v.reachability config).action? i = some b
          ∧ key ∈ b.mutatedKeys)
      ∧ (¬ v.LiveFor id key →
        ∀ i, (v.repaired v.reachability config).Wakes i id →
        i = id ∨ i ∈ v.redundantIds v.reachability ∨ i ∉ v.actionIds) := by
  intro v
  refine ⟨fun id key => bindsTo_iff,
    ⟨fun h a ha horphan hkept key hkey hleast => ?_, fun h id key hbinds => ?_⟩,
    fun id key hbinds =>
      ⟨fun i => hbinds.wakes_iff, fun hdead i => hbinds.eq_of_wakes hdead⟩⟩
  · exact h a.id key
      (bindsTo_iff.2 ⟨horphan, hkept, a, mem_actions.1 ha, hkey, hleast⟩)
  · obtain ⟨horphan, hkept, a, ha, hkey, hleast⟩ := bindsTo_iff.1 hbinds
    obtain rfl := id_of_action? ha
    exact h a (mem_actions_of_action? ha) horphan hkept key hkey hleast

/-- An action that shows a text with a state key in it. -/
def showing (id key : String) : Action :=
  { Action.bare id .workflow with
    config := [("text", .string ("\x7b\x7bstate." ++ key ++ "\x7d\x7d"))] }

/-- Two texts, one with a key that an input is bound to and one with a key of
nobody. -/
def queryDesk : View where
  mutation := { Mutation.empty with
    componentsAdded :=
      [⟨"search_box", .input, [("bindKey", .string "query")], none,
        [], [], none⟩]
    actionsAdded := [showing "echo" "query", showing "greet" "nobody"] }
  prior := none

/-- Both orphans are bound, the one to a live key. The other waits for a key
that nobody writes, and nothing wakes it. -/
theorem binds_to_live_queryDesk :
    (queryDesk.BindsTo .default "echo" "query"
      ∧ queryDesk.LiveFor "echo" "query")
      ∧ (queryDesk.BindsTo .default "greet" "nobody"
        ∧ ¬ queryDesk.LiveFor "greet" "nobody")
      ∧ ∀ i, ¬ (queryDesk.repaired queryDesk.reachability .default).Wakes
        i "greet" := by
  obtain ⟨hbinds, _, hwoken⟩ :=
    binds_to_live_iff queryDesk.mutation queryDesk.prior .default
  have horphans : queryDesk.reachability.orphans = ["echo", "greet"]
      ∧ queryDesk.redundantIds queryDesk.reachability = ∅ := by decide +kernel
  have hkeys : (showing "echo" "query").templatedKeys = KeySet.ofList ["query"]
      ∧ (showing "greet" "nobody").templatedKeys
        = KeySet.ofList ["nobody"] := by decide +kernel
  have hecho : queryDesk.BindsTo .default "echo" "query" :=
    (hbinds "echo" "query").2
      ⟨horphans.1 ▸ by simp, horphans.2 ▸ KeySet.not_mem_empty,
        showing "echo" "query", by decide +kernel,
        by simp [hkeys.1], by simp [hkeys.1]⟩
  have hgreet : queryDesk.BindsTo .default "greet" "nobody" :=
    (hbinds "greet" "nobody").2
      ⟨horphans.1 ▸ by simp, horphans.2 ▸ KeySet.not_mem_empty,
        showing "greet" "nobody", by decide +kernel,
        by simp [hkeys.2], by simp [hkeys.2]⟩
  refine ⟨⟨hecho, by decide +kernel⟩, ⟨hgreet, by decide +kernel⟩,
    fun i hwakes => ?_⟩
  obtain ⟨b, hb, hwrites⟩ := ((hwoken _ _ hgreet).1 i).1 hwakes
  have hnone :
      ∀ b ∈ (queryDesk.repaired queryDesk.reachability .default).actions,
        "nobody" ∉ b.mutatedKeys := by decide +kernel
  exact hnone b (mem_actions_of_action? hb) hwrites

/-- So repair can bind an orphan to a key that is not live. -/
theorem binds_to_dead_queryDesk :
    ¬ ∀ (m : Mutation) (prior : Option Snapshot) (config : Configuration),
      let v : View := ⟨m, prior⟩
      ∀ id key, v.BindsTo config id key → v.LiveFor id key := by
  intro hclaim
  have hbinds : queryDesk.BindsTo .default "greet" "nobody" :=
    ⟨by decide +kernel, by decide +kernel,
      showing "greet" "nobody", by decide +kernel, by decide +kernel⟩
  have hdead : ¬ queryDesk.LiveFor "greet" "nobody" := by decide +kernel
  exact hdead (hclaim queryDesk.mutation queryDesk.prior .default "greet"
    "nobody" hbinds)

end View

end IntentGraph
