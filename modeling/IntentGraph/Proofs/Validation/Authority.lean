import IntentGraph.Proofs.Validation

/-!
# Lists in the state

Lists should enter the state through calls to integrations only. An action can
put a value at a key directly in three forms (`Action.Puts`): its configuration
names the key and has the value beside it, its update map has an entry, or it
has a step. The rule on data authority sees a list in the update map and in a
step, and it sees any write to a key that a call assigns; a list beside the
state key it does not see.

* `View.dataAuthorityViolations_eq_nil_iff_puts`: what the rule asks for, in
  terms of the forms.
* `View.accepts_iff_list_forms`: which documents a structural validation
  accepts.
-/

namespace IntentGraph

/-- The value that goes to the state key of an action. -/
def ConfigKey.value : String := "value"

/-- The forms in which an action puts a value at a key directly. -/
inductive DirectForm where
  | stateKey
  | update
  | step
  deriving DecidableEq

namespace Action

variable {a : Action} {form : DirectForm} {key : String} {value : Json}

/-- An action puts a literal value at a key. -/
inductive Puts (a : Action) : DirectForm → String → Json → Prop
  | stateKey {key : String} {value : Json} :
    a.configText? ConfigKey.stateKey = some key →
      a.config.get? ConfigKey.value = some value → Puts a .stateKey key value
  | update {updates : Fields} {key : String} {value : Json} :
      a.config.get? ConfigKey.updates = some (.object updates) →
        (key, value) ∈ updates →
      Puts a .update key value
  | step {key : String} {value : Json} :
    .stateMutation key (some value) none ∈ a.steps →
      Puts a .step key value

/-- An action puts a list with something in it at a key. -/
def PutsList (a : Action) (form : DirectForm) (key : String) : Prop :=
  ∃ items, items ≠ [] ∧ a.Puts form key (.array items)

/-- Whatever the form, what is put is a literal write. -/
theorem Puts.mem_literalWrites (h : a.Puts form key value) :
    key ∈ a.literalWrites := by
  rw [literalWrites, KeySet.mem_ofList]
  cases h with
  | stateKey hkey _ => simp [hkey]
  | update hupdates hmem =>
    have hkeys : key ∈ a.updateKeys := by
      rw [updateKeys, hupdates]
      exact List.mem_map.2 ⟨_, hmem, rfl⟩
    simp [hkeys]
  | step hstep =>
    have hkeys : key ∈ a.steps.filterMap Step.literalKey? :=
      List.mem_filterMap.2 ⟨_, hstep, rfl⟩
    exact List.mem_append_right _ hkeys

end Action

namespace View

variable {v : View} {a : Action} {key : String}

theorem isListData_iff {value : Json} :
    isListData value = true ↔ ∃ items, items ≠ [] ∧ value = .array items := by
  cases value <;> simp [isListData, Json.asArray?]

/-- The rule sees every list in an update map. -/
theorem mem_listUpdates : key ∈ listUpdates a ↔ a.PutsList .update key := by
  rw [listUpdates]
  constructor
  · intro h
    split at h
    · next updates hupdates =>
      obtain ⟨⟨_, value⟩, hentry, rfl⟩ := List.mem_map.1 h
      obtain ⟨hmem, hlist⟩ := List.mem_filter.1 hentry
      obtain ⟨items, hitems, rfl⟩ := isListData_iff.1 hlist
      exact ⟨items, hitems, .update hupdates hmem⟩
    · cases h
  · rintro ⟨items, hitems, hputs⟩
    cases hputs with
    | update hupdates hmem =>
      rw [hupdates]
      exact List.mem_map.2
        ⟨_, List.mem_filter.2 ⟨hmem,
          isListData_iff.2 ⟨items, hitems, rfl⟩⟩, rfl⟩

/-- The rule sees every list in a step. -/
theorem mem_filterMap_listWrite? :
    key ∈ a.steps.filterMap listWrite? ↔ a.PutsList .step key := by
  rw [List.mem_filterMap]
  constructor
  · rintro ⟨s, hs, hwrite⟩
    unfold listWrite? at hwrite
    split at hwrite
    · split at hwrite
      · next hlist =>
        cases hwrite
        obtain ⟨items, hitems, rfl⟩ := isListData_iff.1 hlist
        exact ⟨items, hitems, .step hs⟩
      · cases hwrite
    · cases hwrite
  · rintro ⟨items, hitems, hputs⟩
    cases hputs with
    | step hstep =>
      refine ⟨_, hstep, ?_⟩
      rw [listWrite?, if_pos (isListData_iff.2 ⟨items, hitems, rfl⟩)]

/-- The rule finds nothing iff no internal action writes a literal to a key that
a call assigns, and none puts a list anywhere but at its state key. -/
theorem dataAuthorityViolations_eq_nil_iff_puts :
    v.dataAuthorityViolations = []
      ↔ ∀ a ∈ v.mutation.actions, a.kind = .internal →
      (∀ key ∈ a.literalWrites, ∀ call ∈ v.actions,
        call.kind = .integrationCall →
        call.assignedKey? ≠ some key)
      ∧ ∀ form key, a.PutsList form key → form = .stateKey := by
  have houtputs : ∀ key, key ∉ v.integrationOutputs ↔
      ∀ call ∈ v.actions, call.kind = .integrationCall →
        call.assignedKey? ≠ some key := by
    intro key
    simp only [mem_integrationOutputs, not_exists, not_and, ne_eq]
  rw [dataAuthorityViolations_eq_nil]
  refine forall₃_congr fun a _ _ => ?_
  rw [authorityBreaches_eq_empty]
  simp only [List.eq_nil_iff_forall_not_mem, mem_listUpdates,
    mem_filterMap_listWrite?, houtputs]
  refine and_congr_right fun _ =>
    ⟨fun ⟨hupdate, hstep⟩ form key hputs => ?_, fun h => ?_⟩
  · cases form with
    | stateKey => rfl
    | update => exact absurd hputs (hupdate key)
    | step => exact absurd hputs (hstep key)
  · exact ⟨fun key hputs => (by cases h _ key hputs),
      fun key hputs => (by cases h _ key hputs)⟩

/-- A document is accepted iff no other rule refuses it, no internal action
writes a literal to a key that a call assigns, and none puts a list at a key in
any form but one: beside its state key. What is put directly is a literal in
every form. -/
theorem accepts_iff_list_forms (v : View) (config : Configuration) :
    ((v.validate config .structural).fatal? = none ↔
      (∀ rule ∈ Rule.table, ValidationMode.structural.covers rule.scope = true →
        rule.severity = .fatal → rule.id ≠ "data_authority" →
          rule.check config v = [])
      ∧ ∀ a ∈ v.mutation.actions, a.kind = .internal →
        (∀ key ∈ a.literalWrites, ∀ call ∈ v.actions,
          call.kind = .integrationCall →
          call.assignedKey? ≠ some key)
        ∧ ∀ form key, a.PutsList form key → form = .stateKey)
    ∧ ∀ (a : Action) form key value, a.Puts form key value →
      key ∈ a.literalWrites := by
  refine ⟨?_, fun a form key value hputs => hputs.mem_literalWrites⟩
  have hauthority : Rule.fatal "data_authority" dataAuthorityViolations
      ∈ Rule.table := by
    simp [Rule.table]
  rw [← dataAuthorityViolations_eq_nil_iff_puts, fatal?_validate]
  constructor
  · intro h
    exact ⟨fun rule hrule hcovers hfatal _ => h rule hrule hcovers hfatal,
      h _ hauthority rfl rfl⟩
  · rintro ⟨hothers, hnone⟩ rule hrule hcovers hfatal
    by_cases hid : rule.id = "data_authority"
    · rw [rule_eq_of_id_eq hrule hauthority hid]
      exact hnone
    · exact hothers rule hrule hcovers hfatal hid

/-- An action that seeds the state when a page loads. -/
def seed (config : Fields) : Action :=
  { Action.bare "seed" .internal with
    config, triggeredBy := [.lifecycle Lifecycle.pageLoad] }

/-- Nothing but the action that seeds the state. -/
def seeding (config : Fields) : View where
  mutation := { Mutation.empty with actionsAdded := [seed config] }
  prior := none

/-- A list with two regions in it. -/
def regions : Json := .array [.string "north", .string "south"]

/-- A list of regions is refused in the update map, and accepted beside the
state key. -/
theorem accepts_iff_list_forms_regions :
    ((seeding [(ConfigKey.updates, .object [("rows", regions)])]).validate
        Configuration.default .structural).fatal? ≠ none
      ∧ ((seeding [(ConfigKey.stateKey, .string "rows"),
        (ConfigKey.value, regions)]).validate Configuration.default
        .structural).fatal? = none := by
  constructor
  · intro haccepted
    obtain ⟨_, hauthority⟩ := (accepts_iff_list_forms _ _).1.1 haccepted
    have hputs :
        (seed [(ConfigKey.updates, .object [("rows", regions)])]).PutsList
          .update "rows" :=
      ⟨_, by decide, .update rfl List.mem_cons_self⟩
    cases (hauthority _ List.mem_cons_self rfl).2 _ _ hputs
  · decide +kernel

/-- So an internal action can put a list at a key after all. -/
theorem puts_list_accepted_regions :
    ¬ ∀ (v : View) (config : Configuration),
      (v.validate config .structural).fatal? = none →
      ∀ a ∈ v.mutation.actions, a.kind = .internal →
        ∀ form key, ¬ a.PutsList form key := by
  intro h
  let fields : Fields :=
    [(ConfigKey.stateKey, .string "rows"), (ConfigKey.value, regions)]
  have haccepted :
      ((seeding fields).validate Configuration.default .structural).fatal?
        = none := by
    decide +kernel
  have hputs : (seed fields).PutsList .stateKey "rows" :=
    ⟨_, by decide, .stateKey (by decide) rfl⟩
  exact h _ _ haccepted _ List.mem_cons_self rfl .stateKey "rows" hputs

end View

end IntentGraph
