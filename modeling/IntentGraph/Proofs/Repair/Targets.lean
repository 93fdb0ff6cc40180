import IntentGraph.Proofs.Key.FilterAlias
import IntentGraph.Proofs.Repair.Parts
import IntentGraph.Proofs.Repair.Validity

/-!
# Who writes what repair writes

An action that repair makes writes keys of its own choosing: a normalizer the
derived key of a result, a mirror the two keys under which components expect a
status. All plans of a stage are made before any of them is carried out, so who
else writes such a key is settled by what was written before the stage and by
the other plans:

* `View.exists_synthesized`: what is made is one addition, and writes what is
  planned (`View.targets`), plan by plan;
* `View.not_written_of_plannedMirrors`: a mirror is only planned onto keys that
  nobody writes, normalizers included. No such care is taken of the key of a
  normalizer;
* `View.plannedMirrors_meet_iff`: mirrors meet when their calls assign keys of
  one stem.

So an action of repair is the only writer of a key iff nobody wrote the key
before and no other plan has it (`View.writesAlone_iff`). Nothing keeps two
plans apart: `View.mirrors_meet_ordersCalls`.
-/

namespace IntentGraph

/-- In a list without repetition, an element is the only one of its sort iff the
sort has one element. -/
theorem forall_eq_iff_countP {α : Type} [DecidableEq α] {xs : List α}
    {p : α → Bool} {x : α} (hnodup : xs.Nodup) (hx : x ∈ xs) (hp : p x = true) :
    (∀ y ∈ xs, p y = true → y = x) ↔ xs.countP p = 1 := by
  have hcount : xs.countP p = (xs.erase x).countP p + 1 := by
    rw [(List.perm_cons_erase hx).countP_eq, List.countP_cons_of_pos hp]
  rw [hcount, Nat.add_eq_right, List.countP_eq_zero]
  constructor
  · intro honly y hy hpy
    obtain ⟨hne, hmem⟩ := hnodup.mem_erase_iff.1 hy
    exact hne (honly y hmem hpy)
  · intro hnone y hy hpy
    by_contra hne
    exact hnone y (hnodup.mem_erase_iff.2 ⟨hne, hy⟩) hpy

namespace View

variable {v : View} {config : Configuration} {a : Action} {key : String}

/-! ## Writers -/

/-- Some action or some component writes the key. -/
def Written (v : View) (key : String) : Prop :=
  (∃ a ∈ v.actions, key ∈ a.mutatedKeys) ∨ ∃ c ∈ v.components, key ∈ c.ownWrites

instance (v : View) (key : String) : Decidable (v.Written key) := by
  unfold Written
  infer_instance

/-- No other action and no component writes the key. -/
structure WritesAlone (v : View) (a : Action) (key : String) : Prop where
  action : ∀ b ∈ v.actions, key ∈ b.mutatedKeys → b = a
  component : ∀ c ∈ v.components, key ∉ c.ownWrites

theorem mem_ownedKeys_of_written (h : v.Written key) : key ∈ v.ownedKeys := by
  rw [ownedKeys, List.append_assoc, List.mem_append, List.mem_append]
  rcases h with ⟨a, ha, hkey⟩ | ⟨c, hc, hkey⟩
  · exact .inr (.inl (List.mem_flatMap.2 ⟨a, ha, hkey⟩))
  · exact .inr (.inr (List.mem_flatMap.2 ⟨c, hc, hkey⟩))

/-- What components expect a status under is written by nobody. -/
theorem not_written_of_isMirrorable (h : v.isMirrorable key = true) :
    ¬ v.Written key := by
  intro hwritten
  exact (isMirrorable_iff.1 h).2 (mem_ownedKeys_of_written hwritten)

/-- What is written after an addition was written before or is written by what
is added. -/
theorem written_addActions {added : List Action} (fresh : v.Fresh added) :
    (v.addActions added).Written key ↔ v.Written key
      ∨ ∃ a ∈ added, key ∈ a.mutatedKeys := by
  simp only [Written, mem_actions_addActions fresh, or_and_right, exists_or]
  exact or_right_comm

/-- Something new is the only writer of a key iff nobody wrote it before, and of
what is new nothing else does. -/
theorem writesAlone_addActions {added : List Action} (fresh : v.Fresh added)
    (ha : a ∈ added) (hkey : key ∈ a.mutatedKeys) :
    (v.addActions added).WritesAlone a key ↔
      ¬ v.Written key ∧ (added.map (·.mutatedKeys)).countP (key ∈ ·) = 1 := by
  have hnodup : added.Nodup := .of_map _ fresh.nodup
  -- with its fresh id the new writer is none of the old actions, and counted
  -- once
  have hold : a ∉ v.actions :=
    fun h => fresh.not_mem a ha (List.mem_map_of_mem h)
  rw [List.countP_map, ← forall_eq_iff_countP hnodup ha (by simpa using hkey)]
  constructor
  · rintro ⟨haction, hcomponent⟩
    refine ⟨?_, fun b hb hwrites => ?_⟩
    · rintro (⟨b, hb, hwrites⟩ | ⟨c, hc, hwrites⟩)
      · have heq :=
          haction b ((mem_actions_addActions fresh).2 (.inl hb)) hwrites
        exact hold (heq ▸ hb)
      · exact hcomponent c hc hwrites
    · exact haction b ((mem_actions_addActions fresh).2 (.inr hb))
        (by simpa using hwrites)
  · rintro ⟨hfree, honly⟩
    refine ⟨fun b hb hwrites => ?_,
      fun c hc hwrites => hfree (.inr ⟨c, hc, hwrites⟩)⟩
    rcases (mem_actions_addActions fresh).1 hb with hb | hb
    · exact absurd (.inl ⟨b, hb, hwrites⟩) hfree
    · exact honly b hb (by simpa using hwrites)

/-! ## What is planned -/

/-- The keys that the plans of repair are to write, plan by plan. -/
def targets (v : View) (config : Configuration) : List KeySet :=
  ((v.settled config).plannedNormalizers config).map
    (fun o => KeySet.ofList [Key.derived o.key])
    ++ ((v.normalized config).plannedMirrors config).map
      fun p => KeySet.ofList [p.uiStatus, p.uiError]

/-- Repair made the action: nothing had its id once redundant actions were
removed. -/
structure Synthesized (v : View) (config : Configuration)
    (a : Action) : Prop where
  mem : a ∈ (v.repaired v.reachability config).mutation.actions
  not_mem : a.id ∉ (v.settled config).actionIds

/-- Actions that were made write what their plans say. -/
theorem map_mutatedKeys_of_made {α : Type} {make : α → String → Action}
    {keys : α → KeySet}
    (hmake : ∀ plan id, (make plan id).mutatedKeys = keys plan) {plans : List α}
    {made : List Action} (h : List.Forall₂ (MadeFrom make) plans made) :
    made.map (·.mutatedKeys) = plans.map keys := by
  induction h with
  | nil => rfl
  | cons hmade _ ih =>
    rw [List.map_cons, List.map_cons, ih, hmade.1, hmake]

/-- What repair makes is one addition to the settled view, which writes what is
planned. -/
theorem exists_synthesized (v : View) (config : Configuration) :
    ∃ made, (v.settled config).Fresh made
      ∧ v.repaired v.reachability config = (v.settled config).addActions made
      ∧ made.map (·.mutatedKeys) = v.targets config
      ∧ ∀ a, v.Synthesized config a ↔ a ∈ made := by
  obtain ⟨normalizers, mirrors, hsynthesis, hnormalized, hrepaired⟩ :=
    exists_synthesis v config
  refine ⟨normalizers ++ mirrors, hsynthesis.fresh, hrepaired, ?_, fun a => ?_⟩
  · rw [List.map_append,
      map_mutatedKeys_of_made UnreadOutput.mutatedKeys_normalizer
      hsynthesis.normalizersMade,
      map_mutatedKeys_of_made MirrorPlan.mutatedKeys_mirror
      hsynthesis.mirrorsMade, targets, hnormalized]
  · constructor
    · rintro ⟨hmem, hnew⟩
      rw [hrepaired] at hmem
      exact (mem_mutation_addActions.1 hmem).resolve_left fun hold =>
        hnew (id_mem_actionIds hold)
    · intro hmade
      refine ⟨?_, hsynthesis.fresh.not_mem a hmade⟩
      rw [hrepaired]
      exact mem_mutation_addActions.2 (.inr hmade)

/-- A mirror is planned onto keys that nobody writes before it, and no
normalizer. -/
theorem not_written_of_plannedMirrors {p : MirrorPlan}
    (hp : p ∈ (v.normalized config).plannedMirrors config)
    (hkey : key ∈ [p.uiStatus, p.uiError]) :
    ¬ (v.settled config).Written key
      ∧ ∀ o ∈ (v.settled config).plannedNormalizers config,
        key ≠ Key.derived o.key := by
  obtain ⟨normalizers, mirrors, hsynthesis, hnormalized, _⟩ :=
    exists_synthesis v config
  obtain ⟨_, _, hstatus, herror⟩ :=
    of_expectedStatus? (of_mem_plannedMirrors hp).2
  -- mirrors are planned with the normalizers in place
  have hfree : ¬ (v.normalized config).Written key := by
    rcases List.mem_pair.1 hkey with rfl | rfl
    · exact not_written_of_isMirrorable hstatus
    · exact not_written_of_isMirrorable herror
  rw [hnormalized, written_addActions hsynthesis.freshNormalizers, not_or,
    exists_made_iff hsynthesis.normalizersMade fun o id => by
      rw [o.mutatedKeys_normalizer, KeySet.mem_ofList,
        List.mem_singleton]] at hfree
  exact ⟨hfree.1, fun o ho heq => hfree.2 ⟨o, ho, heq⟩⟩

/-! ## Mirrors that meet -/

theorem eq_status_of_statusBase? {uiStatus base : String}
    (h : Key.statusBase? uiStatus = some base) :
    uiStatus = Key.status base := by
  obtain ⟨cs, hcs, rfl⟩ := Option.map_eq_some_iff.1 h
  apply String.toList_injective
  rw [← List.append_eq_of_isSuffixOf?_eq_some hcs, Key.status,
    String.toList_append, String.toList_ofList]

/-- What is expected for two keys is the same status key, if it has a key in
common. -/
theorem expectedStatus?_eq_of_mem
    {k k' uiStatus uiError uiStatus' uiError' : String}
    (h : v.expectedStatus? k = some (uiStatus, uiError))
    (h' : v.expectedStatus? k' = some (uiStatus', uiError'))
    (hkey : key ∈ [uiStatus, uiError]) (hkey' : key ∈ [uiStatus', uiError']) :
    uiStatus = uiStatus' := by
  obtain ⟨⟨base, hbase, rfl⟩, _⟩ := of_expectedStatus? h
  obtain ⟨⟨base', hbase', rfl⟩, _⟩ := of_expectedStatus? h'
  rw [eq_status_of_statusBase? hbase] at hkey ⊢
  rw [eq_status_of_statusBase? hbase'] at hkey' ⊢
  rcases List.mem_pair.1 hkey with rfl | rfl
    <;> rcases List.mem_pair.1 hkey' with heq | heq
  · exact heq
  · exact absurd heq (Key.status_ne_error base base')
  · exact absurd heq.symm (Key.status_ne_error base' base)
  · rw [Key.error_injective heq]

/-- The status key of a call is never expected: the executor keeps it. -/
theorem ne_status_of_isMirrorable (h : v.isMirrorable key = true)
    {dataKey : String} (ha : a ∈ v.actions) (hkind : a.kind = .integrationCall)
    (hassigned : a.assignedKey? = some dataKey) : key ≠ Key.status dataKey := by
  rintro rfl
  have hmanaged : Key.status dataKey ∈ v.executorManagedKeys := by
    rw [executorManagedKeys, KeySet.mem_ofList, List.mem_flatMap]
    exact ⟨dataKey, mem_integrationOutputs.2 ⟨a, ha, hkind, hassigned⟩,
      List.mem_cons_self⟩
  exact (isMirrorable_iff.1 h).2
    (List.mem_append_left _ (List.mem_append_left _ hmanaged))

/-- What is expected for two keys of one stem that calls of the view assign is
the same. -/
theorem expectedStatus?_congr
    (hdistinct : (v.mutation.actions.map (·.id)).Nodup) {k k' : String}
    (hcall : v.CallAssigns k) (hcall' : v.CallAssigns k')
    (hstem : Key.stem k = Key.stem k') :
    v.expectedStatus? k = v.expectedStatus? k' := by
  obtain ⟨a, ha, hkind, hassigned⟩ := hcall
  obtain ⟨b, hb, hkind', hassigned'⟩ := hcall'
  -- a key that may be mirrored is the status key of neither call, so only the
  -- stem is asked
  have hiff : ∀ key base, (key ≠ Key.status k ∧ Key.stem key = Key.stem k
      ∧ v.isMirrorable key = true ∧ v.isMirrorable (Key.error base) = true)
      ↔ (key ≠ Key.status k' ∧ Key.stem key = Key.stem k'
        ∧ v.isMirrorable key = true
        ∧ v.isMirrorable (Key.error base) = true) := by
    intro key base
    rw [hstem]
    constructor
    · rintro ⟨_, hkey, hstatus, herror⟩
      exact ⟨ne_status_of_isMirrorable hstatus
        (mem_actions_of_distinct hdistinct hb) hkind' hassigned', hkey,
        hstatus, herror⟩
    · rintro ⟨_, hkey, hstatus, herror⟩
      exact ⟨ne_status_of_isMirrorable hstatus
        (mem_actions_of_distinct hdistinct ha) hkind hassigned, hkey,
        hstatus, herror⟩
  simp only [expectedStatus?, hiff]

/-- Repair keeps the ids of a mutation different. -/
theorem nodup_ids_normalized
    (hdistinct : (v.mutation.actions.map (·.id)).Nodup) :
    ((v.normalized config).mutation.actions.map (·.id)).Nodup := by
  obtain ⟨normalizers, _, hsynthesis, hnormalized, _⟩ :=
    exists_synthesis v config
  rw [hnormalized]
  apply hsynthesis.freshNormalizers.nodup_addActions
  rw [settled, (rewires_settle v v.reachability config).map_id, removeActions,
    Mutation.actions_removeActions]
  exact hdistinct.sublist (List.filter_sublist.map _)

/-- Among actions of different ids, two mirrors have a key in common iff the
keys that their calls assign have one stem. -/
theorem plannedMirrors_meet_iff
    (hdistinct : (v.mutation.actions.map (·.id)).Nodup) {p q : MirrorPlan}
    (hp : p ∈ (v.normalized config).plannedMirrors config)
    (hq : q ∈ (v.normalized config).plannedMirrors config) :
    (∃ key ∈ [p.uiStatus, p.uiError], key ∈ [q.uiStatus, q.uiError])
      ↔ Key.stem p.dataKey = Key.stem q.dataKey := by
  obtain ⟨hcall, hexpected⟩ := of_mem_plannedMirrors hp
  obtain ⟨hcall', hexpected'⟩ := of_mem_plannedMirrors hq
  constructor
  · rintro ⟨key, hkey, hkey'⟩
    have heq := expectedStatus?_eq_of_mem hexpected hexpected' hkey hkey'
    rw [← (of_expectedStatus? hexpected).2.1, heq,
      (of_expectedStatus? hexpected').2.1]
  · intro hstem
    have hsame :=
      expectedStatus?_congr (nodup_ids_normalized hdistinct) hcall hcall' hstem
    rw [hexpected, hexpected', Option.some.injEq, Prod.mk.injEq] at hsame
    exact ⟨p.uiStatus, List.mem_cons_self, hsame.1 ▸ List.mem_cons_self⟩

/-! ## Only writers -/

/-- Repair makes an action for every plan, which writes what the plan says. It
is the only writer of such a key iff nobody wrote the key before and no other
plan has it. For the plan of a mirror this can only be the plan of another
mirror, and with different ids it is one for a key of the same stem. -/
theorem writesAlone_iff (m : Mutation) (prior : Option Snapshot)
    (config : Configuration) :
    let v : View := ⟨m, prior⟩
    (∀ keys, keys ∈ v.targets config ↔ ∃ a, v.Synthesized config a
      ∧ a.mutatedKeys = keys)
      ∧ (∀ a, v.Synthesized config a → ∀ key ∈ a.mutatedKeys,
        ((v.repaired v.reachability config).WritesAlone a key ↔
          ¬ (v.settled config).Written key
            ∧ (v.targets config).countP (key ∈ ·) = 1))
      ∧ (∀ p ∈ (v.normalized config).plannedMirrors config,
        ∀ key ∈ [p.uiStatus, p.uiError], ¬ (v.settled config).Written key
          ∧ ∀ o ∈ (v.settled config).plannedNormalizers config,
            key ≠ Key.derived o.key)
      ∧ ((m.actions.map (·.id)).Nodup →
        ∀ p ∈ (v.normalized config).plannedMirrors config,
          ∀ q ∈ (v.normalized config).plannedMirrors config,
            (∃ key ∈ [p.uiStatus, p.uiError], key ∈ [q.uiStatus, q.uiError])
              ↔ Key.stem p.dataKey = Key.stem q.dataKey) := by
  intro v
  obtain ⟨made, fresh, hrepaired, htargets, hmade⟩ :=
    exists_synthesized v config
  refine ⟨fun keys => ?_, fun a hsynthesized key hkey => ?_,
    fun p hp key hkey => not_written_of_plannedMirrors hp hkey,
    fun hdistinct p hp q hq => plannedMirrors_meet_iff hdistinct hp hq⟩
  · simp only [← htargets, List.mem_map, hmade]
  · rw [hrepaired, ← htargets]
    exact writesAlone_addActions fresh ((hmade a).1 hsynthesized) hkey

/-- Calls on the load of a page, one for every key that is assigned, and
components. -/
def loadingCalls (outputs : List (String × String))
    (components : List Component) : View where
  mutation := { Mutation.empty with
    componentsAdded := components
    actionsAdded := outputs.map fun (id, key) =>
      { Action.bare id .integrationCall with
        config := [(ConfigKey.assignTo, .string key)]
        triggeredBy := [.lifecycle Lifecycle.pageLoad] } }
  prior := none

/-- A component with properties that have texts. -/
def shown (id : String) (kind : ComponentKind)
    (texts : List (String × String)) : Component where
  id := id
  kind := kind
  properties := texts.map fun (name, text) => (name, .string text)
  dataSource := none
  events := []
  children := []
  pageId := none

/-- A component that shows how a call goes on. -/
def statusBadge (id status error : String) : Component :=
  shown id .badge [("statusKey", status), ("errorKey", error)]

/-- The results of two calls are normalized, one of them into a key that an
input is bound to. Their statuses are mirrored, apart from each other. -/
theorem writesAlone_ordersDesk :
    let v := loadingCalls [("load_orders", "rawOrders"), ("search", "rawQuery")]
      [statusBadge "orders_badge" "ordersStatus" "ordersError",
        statusBadge "query_badge" "queryStatus" "queryError",
        shown "search_box" .input [("bindKey", "query")]]
    let out := v.repaired v.reachability .default
    let orders :=
      UnreadOutput.normalizer ⟨"load_orders", "rawOrders"⟩ "normalize_raworders"
    let query :=
      UnreadOutput.normalizer ⟨"search", "rawQuery"⟩ "normalize_rawquery"
    let plan : MirrorPlan := ⟨"rawOrders", "ordersStatus", "ordersError"⟩
    let plan' : MirrorPlan := ⟨"rawQuery", "queryStatus", "queryError"⟩
    (v.Synthesized .default orders ∧ out.WritesAlone orders "orders")
      ∧ (v.Synthesized .default query ∧ ¬ out.WritesAlone query "query")
      ∧ (v.Synthesized .default (plan.mirror "mirror_raworders_status")
        ∧ out.WritesAlone (plan.mirror "mirror_raworders_status")
          "ordersStatus")
      ∧ ¬ ∃ key ∈ [plan.uiStatus, plan.uiError],
        key ∈ [plan'.uiStatus, plan'.uiError] := by
  intro v out orders query plan plan'
  obtain ⟨_, hwrites, _, hmeet⟩ := writesAlone_iff v.mutation v.prior .default
  -- each of the three is in the repaired mutation and was not there before
  have hmade : ∀ a ∈ [orders, query, plan.mirror "mirror_raworders_status"],
      a ∈ out.mutation.actions := by decide +kernel
  have hnew : ∀ a ∈ [orders, query, plan.mirror "mirror_raworders_status"],
      a.id ∉ (v.settled .default).actionIds := by decide +kernel
  have hwritten : (v.settled .default).Written "query"
      ∧ ¬ (v.settled .default).Written "orders"
      ∧ ¬ (v.settled .default).Written "ordersStatus" := by decide +kernel
  have htargets :
      v.targets .default
        = [["orders"], ["query"], ["ordersError", "ordersStatus"],
      ["queryError", "queryStatus"]].map KeySet.ofList := by decide +kernel
  have hplans :
      (v.normalized .default).plannedMirrors .default = [plan, plan'] := by
    decide +kernel
  have horders : v.Synthesized .default orders :=
    ⟨hmade _ (by simp), hnew _ (by simp)⟩
  have hquery : v.Synthesized .default query :=
    ⟨hmade _ (by simp), hnew _ (by simp)⟩
  have hmirror :
      v.Synthesized .default (plan.mirror "mirror_raworders_status") :=
    ⟨hmade _ (by simp), hnew _ (by simp)⟩
  refine ⟨⟨horders, ?_⟩, ⟨hquery, ?_⟩, ⟨hmirror, ?_⟩, ?_⟩
  · rw [hwrites orders horders "orders" (by decide +kernel), htargets]
    exact ⟨hwritten.2.1, by decide +kernel⟩
  · -- the bound input writes the key of the second normalizer
    rw [hwrites query hquery "query" (by decide +kernel)]
    exact fun halone => halone.1 hwritten.1
  · rw [hwrites _ hmirror "ordersStatus" (by decide +kernel), htargets]
    exact ⟨hwritten.2.2, by decide +kernel⟩
  · -- the two calls are of different stems
    rw [hmeet (by decide +kernel) plan (by simp [hplans]) plan'
      (by simp [hplans])]
    decide +kernel

/-- Two calls whose keys have one stem get mirrors that write the same keys. -/
theorem mirrors_meet_ordersCalls :
    ¬ ∀ (m : Mutation) (prior : Option Snapshot) (config : Configuration),
      let v : View := ⟨m, prior⟩
      ∀ a, v.Synthesized config a → ∀ key ∈ a.mutatedKeys,
        (v.repaired v.reachability config).WritesAlone a key := by
  intro hclaim
  let v := loadingCalls [("load_raw", "rawOrders"), ("load_data", "ordersData")]
    [statusBadge "badge" "ordersStatus" "ordersError",
      shown "raw" .table [("dataKey", "rawOrders")],
      shown "data" .table [("dataKey", "ordersData")]]
  let first := MirrorPlan.mirror ⟨"rawOrders", "ordersStatus", "ordersError"⟩
    "mirror_raworders_status"
  let second := MirrorPlan.mirror ⟨"ordersData", "ordersStatus", "ordersError"⟩
    "mirror_ordersdata_status"
  have hmade :
      ∀ a ∈ [first, second],
        a ∈ (v.repaired v.reachability .default).mutation.actions
      ∧ a ∈ (v.repaired v.reachability .default).actions := by decide +kernel
  have hfirst : v.Synthesized .default first :=
    ⟨(hmade _ (by simp)).1, by decide +kernel⟩
  have halone :=
    hclaim v.mutation v.prior .default first hfirst "ordersStatus"
      (by decide +kernel)
  have hsame : second = first :=
    halone.action second (hmade _ (by simp)).2 (by decide +kernel)
  exact absurd hsame (by decide +kernel)

end View

end IntentGraph
