import IntentGraph.Proofs.Key.FilterAlias
import IntentGraph.Proofs.Key.Renaming
import IntentGraph.Proofs.Normalization.Tidy

/-!
# Renaming leaves no ad-hoc spelling

A rename carries the keys that a part of a document mentions, one by one, to the
keys that the renamed part mentions (`KeyRename.Carries`). The status and the
error key of a call are not among them: they are spelled nowhere, but derived
from the assigned key. Of the keys that are spelled (`Action.spelledWrites` and
those that are read) each ad-hoc one has its rename, and so none is left once
all renames are carried out: `IntentDocument.meets_spelledRight_normalize`.
-/

namespace IntentGraph

/-! ## Keys that are spelled and keys that are derived -/

namespace Action

/-- The keys that an action writes and that are spelled in it. -/
def spelledWrites (a : Action) : List String :=
  if a.kind.isMutating then
    a.assignedKey?.toList ++ (a.configText? ConfigKey.stateKey).toList
      ++ a.updateKeys
      ++ a.steps.filterMap Step.writtenKey?
  else []

/-- The status and the error key of a call to an integration. -/
def companionKeys (a : Action) : List String :=
  if a.kind = .integrationCall then
    a.assignedKey?.toList.flatMap fun key => [Key.status key, Key.error key]
  else []

theorem mem_companionKeys_iff {a : Action} {key : String} :
    key ∈ a.companionKeys ↔ a.kind = .integrationCall
      ∧ ∃ assigned, a.assignedKey? = some assigned
        ∧ key ∈ [Key.status assigned, Key.error assigned] := by
  unfold companionKeys
  split
  · next hcall => simp [hcall]
  · next hcall => simp [hcall]

/-- What an action writes is spelled in it, or a companion of what it
assigns. -/
theorem mem_mutatedKeys_iff {a : Action} {key : String} :
    key ∈ a.mutatedKeys ↔ key ∈ a.spelledWrites ∨ key ∈ a.companionKeys := by
  unfold mutatedKeys spelledWrites companionKeys assignedKeys
  by_cases hcall : a.kind = .integrationCall
  · have hmutating : a.kind.isMutating = true := by rw [hcall]; rfl
    rw [if_pos hmutating, if_pos hmutating, if_pos hcall]
    cases a.assignedKey? with
    | none => simp
    | some assigned =>
      simp [hcall, or_assoc, or_left_comm, or_comm]
  · rw [if_neg hcall]
    by_cases hmutating : a.kind.isMutating = true
    · rw [if_pos hmutating, if_pos hmutating]
      cases a.assignedKey? <;> simp [hcall]
    · rw [if_neg hmutating, if_neg hmutating]
      simp

end Action

/-! ## One rename -/

namespace KeyRename

variable {r : KeyRename}

/-- Every key on the right is what becomes of one on the left. -/
def Carries (r : KeyRename) (keys keys' : List String) : Prop :=
  ∀ key' ∈ keys', ∃ key ∈ keys, key' = r.onKey key ∨ key' = r.onKeyText key

/-- Parts that are renamed one by one have the renamed keys. -/
theorem filterMap_map_of_onKey {α : Type} {f : α → α} {key? : α → Option String}
    (h : ∀ x, key? (f x) = (key? x).map r.onKey) (xs : List α) :
    (xs.map f).filterMap key? = (xs.filterMap key?).map r.onKey := by
  rw [List.filterMap_map, show key? ∘ f = fun x =>
    (key? x).map r.onKey from funext h, ← List.map_filterMap]

namespace Carries

variable {keys keys' more more' : List String}

theorem append (h : r.Carries keys keys') (hmore : r.Carries more more') :
    r.Carries (keys ++ more) (keys' ++ more') := by
  intro key' hkey'
  rcases List.mem_append.1 hkey' with hkey' | hkey'
  · obtain ⟨key, hkey, heq⟩ := h key' hkey'
    exact ⟨key, List.mem_append_left _ hkey, heq⟩
  · obtain ⟨key, hkey, heq⟩ := hmore key' hkey'
    exact ⟨key, List.mem_append_right _ hkey, heq⟩

theorem ofList (h : r.Carries keys keys') :
    r.Carries (KeySet.ofList keys) (KeySet.ofList keys') := by
  intro key' hkey'
  obtain ⟨key, hkey, heq⟩ := h key' (KeySet.mem_ofList.1 hkey')
  exact ⟨key, KeySet.mem_ofList.2 hkey, heq⟩

theorem map_onKey (keys : List String) : r.Carries keys (keys.map r.onKey) := by
  intro key' hkey'
  obtain ⟨key, hkey, rfl⟩ := List.mem_map.1 hkey'
  exact ⟨key, hkey, .inl rfl⟩

/-- Whatever parts have a key each, or none, and are renamed one by one. -/
theorem filterMap {α : Type} {f : α → α} {key? : α → Option String}
    (h : ∀ x, key? (f x) = (key? x).map r.onKey) (xs : List α) :
    r.Carries (xs.filterMap key?) ((xs.map f).filterMap key?) := by
  rw [filterMap_map_of_onKey h]
  exact map_onKey _

end Carries

/-! ### Texts -/

section texts

variable (hr : Key.filterAlias? r.old = some r.new)
include hr

theorem Carries.configText? (a : Action) {key : String}
    (hkey : key ∈ keyEntries) :
    r.Carries (a.configText? key).toList
      ((r.onAction a).configText? key).toList := by
  intro t ht
  rw [Option.mem_toList, configText?_onAction hr a hkey] at ht
  obtain ⟨s, hs, rfl⟩ := Option.map_eq_some_iff.1 ht
  exact ⟨s, Option.mem_toList.2 hs, .inr rfl⟩

theorem Carries.nonemptyProperty? (c : Component) :
    r.Carries (Component.bindingProperties.filterMap c.nonemptyProperty?)
      (Component.bindingProperties.filterMap
        (r.onComponent c).nonemptyProperty?) := by
  intro t ht
  obtain ⟨name, hname, h⟩ := List.mem_filterMap.1 ht
  have hget : (r.onComponent c).properties.get? name
      = (c.properties.get? name).map fun value =>
        r.onTemplates (r.onKeyValue value) := by
    simp only [onComponent, Fields.get?_mapValues,
      if_pos (List.contains_iff_mem.2 hname)]
  rw [Component.nonemptyProperty?, Component.property?, hget,
    filter_text hr] at h
  obtain ⟨s, hs, rfl⟩ := Option.map_eq_some_iff.1 h
  exact ⟨s, List.mem_filterMap.2 ⟨name, hname, hs⟩, .inr rfl⟩

end texts

/-! ### Maps -/

/-- A renamed map has the entries that it had, under renamed keys. -/
theorem exists_of_mem_onMap {fields : Fields} {key : String} {value : Json}
    (h : (key, value) ∈ r.onMap fields) :
    ∃ old, (old, value) ∈ fields ∧ key = r.onKey old := by
  have hkeep : ∀ {key : String}, (key, value) ∈ fields → key ≠ r.old →
      ∃ old, (old, value) ∈ fields ∧ key = r.onKey old :=
    fun hmem hne => ⟨_, hmem, (if_neg hne).symm⟩
  unfold onMap at h
  cases hget : fields.get? r.old with
  | none =>
    rw [hget] at h
    refine hkeep h ?_
    rintro rfl
    exact Fields.get?_eq_none_iff.1 hget (Fields.mem_keys.2 ⟨value, h⟩)
  | some moved =>
    simp only [hget] at h
    -- the moved value is dropped where the new key has an entry
    split at h
    · obtain ⟨hmem, hne⟩ := Fields.mem_erase.1 h
      exact hkeep hmem hne
    · rcases Fields.mem_of_mem_insert h with heq | h
      · obtain ⟨rfl, rfl⟩ := Prod.mk.inj heq
        exact ⟨r.old, Fields.mem_of_get? hget, (if_pos rfl).symm⟩
      · obtain ⟨hmem, hne⟩ := Fields.mem_erase.1 h
        exact hkeep hmem hne

theorem mem_keys_onMap_iff {fields : Fields} {key : String} :
    key ∈ Fields.keys (r.onMap fields)
      ↔ ∃ old ∈ Fields.keys fields, r.onKey old = key := by
  constructor
  · intro hkey
    obtain ⟨value, hentry⟩ := Fields.mem_keys.1 hkey
    obtain ⟨old, hold, rfl⟩ := exists_of_mem_onMap hentry
    exact ⟨old, Fields.mem_keys.2 ⟨value, hold⟩, rfl⟩
  · rintro ⟨old, hold, rfl⟩
    unfold onMap onKey
    cases hget : fields.get? r.old with
    | none =>
      have hne : old ≠ r.old :=
        fun heq => Fields.get?_eq_none_iff.1 hget (heq ▸ hold)
      rw [if_neg hne]
      exact hold
    | some value =>
      simp only
      -- the old key goes, and the new one is there or is put in
      by_cases heq : old = r.old
      · rw [if_pos heq]
        split
        · next hcontains => exact Fields.contains_iff.1 hcontains
        · exact Fields.mem_keys_insert.2 (.inl rfl)
      · have hrest : old ∈ Fields.keys (fields.erase r.old) :=
          Fields.mem_keys_erase.2 ⟨hold, heq⟩
        rw [if_neg heq]
        split
        · exact hrest
        · exact Fields.mem_keys_insert.2 (.inr hrest)

theorem mem_updateKeys_onAction_iff {a : Action} {key : String} :
    key ∈ (r.onAction a).updateKeys
      ↔ ∃ old ∈ a.updateKeys, r.onKey old = key := by
  have hget : (r.onAction a).config.get? ConfigKey.updates
      = (a.config.get? ConfigKey.updates).map fun value =>
        r.onTemplates (r.onMapValue value) := by
    show Fields.get? (r.onConfig a.config) ConfigKey.updates = _
    rw [onConfig, Fields.get?_mapValues]
    rfl
  rw [Action.updateKeys, hget, Action.updateKeys]
  cases a.config.get? ConfigKey.updates with
  | none => simp
  | some value =>
    cases value with
    | object fields =>
      rw [← mem_keys_onMap_iff,
        ← Json.keys_mapStringsOfFields (Template.renameInString r.old r.new)]
      rfl
    | _ => simp [onMapValue, onTemplates, Template.renameIn, Json.mapStrings]

theorem Carries.keys_onMap (r : KeyRename) (fields : Fields) :
    r.Carries (Fields.keys fields) (Fields.keys (r.onMap fields)) := by
  intro key hkey
  obtain ⟨old, hold, rfl⟩ := mem_keys_onMap_iff.1 hkey
  exact ⟨old, hold, .inl rfl⟩

theorem Carries.updateKeys (r : KeyRename) (a : Action) :
    r.Carries a.updateKeys (r.onAction a).updateKeys := by
  intro key hkey
  obtain ⟨old, hold, rfl⟩ := mem_updateKeys_onAction_iff.1 hkey
  exact ⟨old, hold, .inl rfl⟩

/-! ### Templates -/

/-- A renamed map has no values but those that it had. -/
theorem mem_keysOf_of_onMapValue {value : Json} {key : String}
    (h : key ∈ Template.keysOf (r.onMapValue value)) :
    key ∈ Template.keysOf value := by
  cases value with
  | object fields =>
    obtain ⟨s, hs, hkey⟩ := List.mem_flatMap.1 h
    obtain ⟨value, hvalue, hs⟩ := Json.mem_stringsOfFields.1 hs
    obtain ⟨name, hentry⟩ := Fields.mem_values.1 hvalue
    obtain ⟨old, hold, _⟩ := exists_of_mem_onMap hentry
    exact List.mem_flatMap.2
      ⟨s, Json.mem_stringsOfFields.2 ⟨value,
        Fields.mem_values.2 ⟨old, hold⟩, hs⟩, hkey⟩
  | _ => exact h

section templates

variable (hr : Key.filterAlias? r.old = some r.new)
include hr

theorem old_ne_new : r.old ≠ r.new :=
  Key.ne_of_filterAlias? hr (Key.filterAlias?_of_filterAlias? hr)

/-- A string is left alone iff it does not refer to the old key. -/
theorem renameInString_eq_self_iff (s : String) :
    Template.renameInString r.old r.new s = s ↔ r.old ∉ Template.keysIn s :=
  Template.renameInString_eq_self_iff (Key.isKey_meant hr) (old_ne_new hr) s

theorem onKeyText_old : r.onKeyText r.old = r.new := by
  rw [onKeyText, onKey, if_pos rfl, renameInString_eq_self_iff hr,
    Template.keysIn_eq_nil (Key.not_mem_brace_meant hr)]
  exact List.not_mem_nil

theorem keysOf_onTemplates (value : Json) :
    Template.keysOf (r.onTemplates value)
      = (Template.keysOf value).map r.onKey :=
  Template.keysOf_renameIn (Key.isKey_meant hr) value

/-- Neither the old nor the new key is a text that refers to keys. -/
theorem keysIn_onKey (s : String) :
    Template.keysIn (r.onKey s) = Template.keysIn s := by
  unfold onKey
  split
  · next hs =>
    rw [hs, Template.keysIn_eq_nil (Key.not_mem_brace_of_filterAlias? hr),
      Template.keysIn_eq_nil (Key.not_mem_brace_meant hr)]
  · rfl

theorem keysOf_onKeyValue (value : Json) :
    Template.keysOf (r.onKeyValue value) = Template.keysOf value := by
  cases value with
  | string s =>
    simp [onKeyValue, Template.keysOf, Json.strings, keysIn_onKey hr]
  | _ => rfl

end templates

/-- Values that are renamed one by one refer to the renamed keys. -/
theorem Carries.values (hr : Key.filterAlias? r.old = some r.new)
    {f : String → Json → Json}
    (hf : ∀ name value, ∀ key ∈ Template.keysOf (f name value),
      key ∈ Template.keysOf value)
    (fields : Fields) :
    r.Carries (fields.values.flatMap Template.keysOf)
      ((Fields.values (fields.mapValues fun name value =>
        r.onTemplates (f name value))).flatMap Template.keysOf) := by
  intro key hkey
  obtain ⟨value, hvalue, hkey⟩ := List.mem_flatMap.1 hkey
  obtain ⟨name, hentry⟩ := Fields.mem_values.1 hvalue
  obtain ⟨old, hold, rfl⟩ := Fields.mem_mapValues.1 hentry
  rw [keysOf_onTemplates hr] at hkey
  obtain ⟨key', hkey', rfl⟩ := List.mem_map.1 hkey
  exact ⟨key',
    List.mem_flatMap.2 ⟨old, Fields.mem_values.2 ⟨name, hold⟩,
      hf name old key' hkey'⟩,
    .inl rfl⟩

/-! ### Parts of a document -/

section parts

variable (hr : Key.filterAlias? r.old = some r.new)
include hr

theorem Carries.spelledWrites (a : Action) :
    r.Carries a.spelledWrites (r.onAction a).spelledWrites := by
  have hsteps : r.Carries (a.steps.filterMap Step.writtenKey?)
      ((a.steps.map r.onStep).filterMap Step.writtenKey?) :=
    Carries.filterMap (fun step => by cases step <;> rfl) a.steps
  have hkind : (r.onAction a).kind = a.kind := rfl
  unfold Action.spelledWrites
  rw [hkind]
  split
  · exact (((Carries.configText? hr a (by decide)).append
      (Carries.configText? hr a (by decide))).append
      (Carries.updateKeys r a)).append hsteps
  · intro key hkey
    cases hkey

theorem Carries.config (a : Action) :
    r.Carries (a.config.values.flatMap Template.keysOf)
      ((r.onAction a).config.values.flatMap Template.keysOf) := by
  refine Carries.values (f := fun name value => if keyEntries.contains name then
    r.onKeyValue value
    else if name = ConfigKey.updates then r.onMapValue value else value)
      hr ?_ a.config
  intro name value key hkey
  split at hkey
  · rwa [keysOf_onKeyValue hr] at hkey
  · split at hkey
    · exact mem_keysOf_of_onMapValue hkey
    · exact hkey

theorem Carries.payloads (step : Step) :
    r.Carries (step.payloads.flatMap Template.keysOf)
      ((r.onStep step).payloads.flatMap Template.keysOf) := by
  cases step with
  | stateMutation key value source =>
    cases value with
    | none => intro key hkey; cases hkey
    | some value =>
      simp only [onStep, Step.payloads, Option.map_some, List.flatMap_singleton,
        keysOf_onTemplates hr]
      exact Carries.map_onKey _
  | integrationCall capability params =>
    exact Carries.values (f := fun _ value => value) hr
      (fun _ _ _ hkey => hkey) params
  | _ => intro key hkey; cases hkey

theorem Carries.templatedKeys (a : Action) :
    r.Carries a.templatedKeys (r.onAction a).templatedKeys := by
  refine Carries.ofList ?_
  rw [List.flatMap_append, List.flatMap_append]
  refine (Carries.config hr a).append ?_
  intro key hkey
  obtain ⟨value, hvalue, hkey⟩ := List.mem_flatMap.1 hkey
  obtain ⟨step', hstep', hvalue⟩ := List.mem_flatMap.1 hvalue
  obtain ⟨step, hstep, rfl⟩ := List.mem_map.1 hstep'
  obtain ⟨old, hold, heq⟩ :=
    Carries.payloads hr step key (List.mem_flatMap.2 ⟨value, hvalue, hkey⟩)
  obtain ⟨value', hvalue', hold⟩ := List.mem_flatMap.1 hold
  exact ⟨old, List.mem_flatMap.2 ⟨value',
    List.mem_flatMap.2 ⟨step, hstep, hvalue'⟩, hold⟩, heq⟩

theorem Carries.readKeys (a : Action) :
    r.Carries a.readKeys (r.onAction a).readKeys := by
  have hinputs :
      r.Carries (a.inputs.getD []) ((r.onAction a).inputs.getD []) := by
    show r.Carries _ ((a.inputs.map _).getD [])
    cases a.inputs with
    | none => intro key hkey; cases hkey
    | some keys => exact Carries.map_onKey keys
  have hsteps : r.Carries (a.steps.filterMap Step.sourceKey?)
      ((a.steps.map r.onStep).filterMap Step.sourceKey?) :=
    Carries.filterMap (fun step => by cases step <;> rfl) a.steps
  have hwatched : r.Carries a.watchedKeys (r.onAction a).watchedKeys :=
    Carries.filterMap (fun trigger => by cases trigger <;> rfl) a.triggeredBy
  exact Carries.ofList ((((((Carries.templatedKeys hr a).append hinputs).append
    (Carries.configText? hr a (by decide))).append
    (Carries.configText? hr a (by decide))).append hsteps).append hwatched)

theorem Carries.componentKeys (c : Component) :
    r.Carries c.readKeys (r.onComponent c).readKeys := by
  have hvalues : r.Carries (c.properties.values.flatMap Template.keysOf)
      ((r.onComponent c).properties.values.flatMap Template.keysOf) := by
    refine Carries.values (f := fun name value =>
      if Component.bindingProperties.contains name then r.onKeyValue value
        else value) hr ?_
      c.properties
    intro name value key hkey
    split at hkey
    · rwa [keysOf_onKeyValue hr] at hkey
    · exact hkey
  have hsource : r.Carries (c.dataSource.bind DataSource.readKey?).toList
      ((r.onComponent c).dataSource.bind DataSource.readKey?).toList := by
    have heq : ((r.onComponent c).dataSource.bind DataSource.readKey?).toList
        = (c.dataSource.bind DataSource.readKey?).toList.map r.onKey := by
      show ((c.dataSource.map r.onDataSource).bind _).toList = _
      cases c.dataSource with
      | none => rfl
      | some source => cases source <;> rfl
    rw [heq]
    exact Carries.map_onKey _
  exact Carries.ofList
    (((Carries.nonemptyProperty? hr c).append hvalues).append hsource)

omit hr in
theorem Carries.stateUpdates (r : KeyRename) (c : Component) :
    r.Carries c.stateUpdates (r.onComponent c).stateUpdates :=
  Carries.filterMap (f := r.onEvent) (fun _ => rfl) c.events

end parts

/-! ### What is left to be renamed -/

/-- A key is spelled right, or it has its turn to be renamed. -/
def Pending (rest : List String) (key : String) : Prop :=
  key ∈ rest ∨ Key.filterAlias? key = none

/-- After its turn a key is spelled right. -/
theorem pending_onKey (hr : Key.filterAlias? r.old = some r.new)
    {rest : List String} {key : String} (h : Pending (r.old :: rest) key) :
    Pending rest (r.onKey key) := by
  unfold onKey
  split
  · exact .inr (Key.filterAlias?_of_filterAlias? hr)
  · next hne =>
    exact h.imp_left fun hmem => (List.mem_cons.1 hmem).resolve_left hne

theorem meant_onKey (hr : Key.filterAlias? r.old = some r.new) (key : String) :
    Key.meant (r.onKey key) = Key.meant key := by
  unfold onKey
  split
  · next hkey =>
    rw [hkey, Key.meant_eq_self_iff.2 (Key.filterAlias?_of_filterAlias? hr),
      Key.meant, hr, Option.getD_some]
  · rfl

/-- Renamed in its turn, a key becomes what it stands for. -/
theorem foldl_onKey {renames : List KeyRename}
    (halias : ∀ r ∈ renames, Key.filterAlias? r.old = some r.new) {key : String}
    (h : Pending (renames.map (·.old)) key) :
    renames.foldl (fun key r => r.onKey key) key = Key.meant key := by
  induction renames generalizing key with
  | nil =>
    rw [List.foldl_nil,
      Key.meant_eq_self_iff.2 (h.resolve_left List.not_mem_nil)]
  | cons r renames ih =>
    obtain ⟨hr, hrest⟩ := List.forall_mem_cons.1 halias
    rw [List.foldl_cons, ih hrest (pending_onKey hr h), meant_onKey hr]

/-- A text that is renamed as a template was no ad-hoc spelling, and is none. -/
theorem pending_onKeyText (hr : Key.filterAlias? r.old = some r.new)
    {rest : List String} {key : String} (h : Pending (r.old :: rest) key) :
    Pending rest (r.onKeyText key) := by
  cases halias : Key.filterAlias? (r.onKeyText key) with
  | none => exact .inr halias
  | some new =>
    have hsame : r.onKeyText key = r.onKey key :=
      Template.renameInString_eq_self (Key.not_mem_brace_of_filterAlias? halias)
    rw [hsame]
    exact pending_onKey hr h

theorem Carries.pending (hr : Key.filterAlias? r.old = some r.new)
    {rest keys keys' : List String} (h : r.Carries keys keys')
    (hkeys : ∀ key ∈ keys, Pending (r.old :: rest) key) :
    ∀ key ∈ keys', Pending rest key := by
  intro key' hkey'
  obtain ⟨key, hkey, rfl | rfl⟩ := h key' hkey'
  · exact pending_onKey hr (hkeys key hkey)
  · exact pending_onKeyText hr (hkeys key hkey)

end KeyRename

/-! ## All renames -/

/-- The keys that are spelled in actions, state and the writes of components are
of one sort, and those that components read of another. -/
def Standard.spelled (sort readSort : String → Prop) : Standard where
  action a := (∀ key ∈ a.spelledWrites, sort key) ∧ ∀ key ∈ a.readKeys, sort key
  component c :=
    (∀ key ∈ c.readKeys, readSort key) ∧ ∀ key ∈ c.stateUpdates, sort key
  page _ := True
  state fields := ∀ key ∈ Fields.keys fields, sort key

namespace KeyRename

/-- A rename leaves one key less to be renamed. -/
theorem brings_pending {r : KeyRename}
    (hr : Key.filterAlias? r.old = some r.new) (rest : List String) :
    r.revision.Brings
      (.spelled (Pending (r.old :: rest)) (Pending (r.old :: rest)))
      (.spelled (Pending rest) (Pending rest)) where
  action a h :=
    ⟨(Carries.spelledWrites hr a).pending hr h.1,
      (Carries.readKeys hr a).pending hr h.2⟩
  component c h :=
    ⟨(Carries.componentKeys hr c).pending hr h.1,
      (Carries.stateUpdates r c).pending hr h.2⟩
  page _ _ := trivial
  state fields h := (Carries.keys_onMap r fields).pending hr h

end KeyRename

namespace IntentDocument

variable {d : IntentDocument}

theorem mem_mentionedKeys {key : String} : key ∈ d.mentionedKeys ↔
    (∃ fields ∈ d.allStates, key ∈ Fields.keys fields)
      ∨ (∃ c ∈ d.allComponents, key ∈ c.mentionedKeys)
      ∨ ∃ a ∈ d.allActions, key ∈ a.mentionedKeys := by
  have hstates :
      key ∈ Fields.keys d.mutation.state
        ++ Fields.keys (d.prior.getD .empty).state
      ↔ ∃ fields ∈ d.allStates, key ∈ Fields.keys fields := by
    simp only [allStates, Mutation.state, Fields.keys]
    cases d.prior <;> simp [Snapshot.empty]
  have hcomponents : key ∈ d.mutation.components.flatMap Component.mentionedKeys
        ++ (d.prior.getD .empty).components.flatMap Component.mentionedKeys
      ↔ ∃ c ∈ d.allComponents, key ∈ c.mentionedKeys := by
    rw [allComponents, ← List.flatMap_append, List.mem_flatMap]
    cases d.prior <;> rfl
  have hactions : key ∈ d.mutation.actions.flatMap Action.mentionedKeys
        ++ (d.prior.getD .empty).actions.flatMap Action.mentionedKeys
      ↔ ∃ a ∈ d.allActions, key ∈ a.mentionedKeys := by
    rw [allActions, ← List.flatMap_append, List.mem_flatMap]
    cases d.prior <;> rfl
  rw [← hstates, ← hcomponents, ← hactions, mentionedKeys]
  simp only [KeySet.mem_ofList, List.mem_append, or_assoc, or_left_comm]

/-- What renames are left to be carried out is left to be renamed. -/
theorem Meets.foldl_pending {renames : List KeyRename}
    (halias : ∀ r ∈ renames, Key.filterAlias? r.old = some r.new)
    (h : d.Meets (.spelled (KeyRename.Pending (renames.map (·.old)))
      (KeyRename.Pending (renames.map (·.old))))) :
    (renames.foldl (fun d r => r.revision.onDocument d) d).Meets
      (.spelled (KeyRename.Pending []) (KeyRename.Pending [])) := by
  induction renames generalizing d with
  | nil => exact h
  | cons r renames ih =>
    exact ih (fun r' hr' => halias r' (List.mem_cons_of_mem _ hr'))
      (h.onDocument (KeyRename.brings_pending (halias r List.mem_cons_self) _))

/-- Every ad-hoc spelling that is mentioned has its rename. -/
theorem pending_filterRenames {key : String} (h : key ∈ d.mentionedKeys) :
    KeyRename.Pending (d.filterRenames.map (·.old)) key := by
  cases halias : Key.filterAlias? key with
  | none => exact .inr halias
  | some new =>
    exact .inl (List.mem_map.2 ⟨⟨key, new⟩,
      mem_filterRenames.2 ⟨h, halias⟩, rfl⟩)

theorem meets_pending (d : IntentDocument) :
    d.Meets (.spelled (KeyRename.Pending (d.filterRenames.map (·.old)))
      (KeyRename.Pending (d.filterRenames.map (·.old)))) where
  action a ha := by
    refine ⟨fun _ hkey => pending_filterRenames ?_,
      fun _ hkey => pending_filterRenames ?_⟩
    · exact mem_mentionedKeys.2 (.inr (.inr ⟨a, ha,
        List.mem_append_left _ (Action.mem_mutatedKeys_iff.2 (.inl hkey))⟩))
    · exact mem_mentionedKeys.2
        (.inr (.inr ⟨a, ha, List.mem_append_right _ hkey⟩))
  component c hc := by
    refine ⟨fun _ hkey => pending_filterRenames ?_,
      fun _ hkey => pending_filterRenames ?_⟩
    · exact mem_mentionedKeys.2
        (.inr (.inl ⟨c, hc, List.mem_append_left _ hkey⟩))
    · exact mem_mentionedKeys.2
        (.inr (.inl ⟨c, hc, List.mem_append_right _ hkey⟩))
  page _ _ := trivial
  state fields hfields := fun _ hkey =>
    pending_filterRenames (mem_mentionedKeys.2 (.inl ⟨fields, hfields, hkey⟩))

end IntentDocument

/-! ## Normalization -/

/-- No ad-hoc spelling but those that the sentinel refers to. -/
def SpelledWith (sentinel key : String) : Prop :=
  Key.filterAlias? key = none ∨ key ∈ Template.keysIn sentinel

/-- The keys of a normalized document. -/
def Standard.spelledRight (sentinel : String) : Standard :=
  .spelled (Key.filterAlias? · = none) (SpelledWith sentinel)

/-- Where keys are spelled right, what is written is spelled right, or is a
companion of the word alone. -/
theorem written_of_spelledRight {sentinel key : String} {a : Action}
    (h : (Standard.spelledRight sentinel).action a)
    (hkey : key ∈ a.mutatedKeys) :
    Key.filterAlias? key = none
      ∨ ∃ word ∈ Key.filterWords, a.assignedKey? = some word
        ∧ key ∈ [Key.status word, Key.error word] := by
  rcases Action.mem_mutatedKeys_iff.1 hkey with hspelled | hcompanion
  · exact .inl (h.1 key hspelled)
  · obtain ⟨hcall, assigned, hassigned, hkeys⟩ :=
      Action.mem_companionKeys_iff.1 hcompanion
    have hmutating : a.kind.isMutating = true := by rw [hcall]; rfl
    have hright : Key.filterAlias? assigned = none := by
      refine h.1 assigned ?_
      rw [Action.spelledWrites, if_pos hmutating, hassigned]
      simp
    have hsuffix : ∃ suffix ∈ [Key.statusSuffix, Key.errorSuffix],
        key = assigned ++ suffix := by
      simpa [Key.status, Key.error] using hkeys
    obtain ⟨suffix, hsuffix, rfl⟩ := hsuffix
    by_cases halias : Key.filterAlias? (assigned ++ suffix) = none
    · exact .inl halias
    · exact .inr ⟨assigned,
        (Key.filterAlias?_companion_iff hright hsuffix).1 halias,
        hassigned, hkeys⟩

theorem brings_spelledRight (sentinel : String) :
    (optionSentinels sentinel).Brings
      (.spelled (KeyRename.Pending []) (KeyRename.Pending []))
      (.spelledRight sentinel) where
  action a h := ⟨fun key hkey => (h.1 key hkey).resolve_left List.not_mem_nil,
    fun key hkey => (h.2 key hkey).resolve_left List.not_mem_nil⟩
  component c h := by
    refine ⟨fun key hkey => ?_, fun key hkey => ?_⟩
    · exact (Component.mem_readKeys_withOptionSentinels hkey).imp_left
        fun hkey =>
        (h.1 key hkey).resolve_left List.not_mem_nil
    · have hkey' : key ∈ c.stateUpdates := by
        rw [← Component.stateUpdates_withOptionSentinels]
        exact hkey
      exact (h.2 key hkey').resolve_left List.not_mem_nil
  page _ _ := trivial
  state fields h := fun key hkey => (h key hkey).resolve_left List.not_mem_nil

theorem filterSentinels_brings_spelled (sentinel : String)
    (sort readSort : String → Prop) :
    (filterSentinels sentinel).Brings (.spelled sort readSort)
      (.spelled sort readSort) where
  action _ h := h
  component _ h := h
  page _ h := h
  state fields h := by
    show ∀ key ∈ Fields.keys (withFilterSentinels sentinel fields), sort key
    rw [withFilterSentinels, Fields.keys_mapValues]
    exact h

/-- After normalization no key is spelled ad hoc, in the mutation or in the
snapshot. -/
theorem IntentDocument.meets_spelledRight_normalize
    (settings : NormalizeSettings) (d : IntentDocument) :
    (d.normalize settings).1.Meets (.spelledRight settings.filterSentinel) :=
  ((Meets.foldl_pending (fun _ hr => (mem_filterRenames.1 hr).2)
    (d.respelled settings).meets_pending).onDocument
      (filterSentinels_brings_spelled settings.filterSentinel _ _)).onDocument
      (brings_spelledRight settings.filterSentinel)

end IntentGraph
