import IntentGraph.Proofs.Normalization.FilterKeys

/-!
# Normalization twice is normalization once

A rename that was carried out has nothing left to do, and neither a later rename
nor a sentinel gives it something to do: what they put in the place of a key or
of a text mentions no ad-hoc spelling. This is `Settles`, part by part up to
`KeyRename.brings_settled`.

A normalized document may still ask for a rename. The ad-hoc spellings left in
it are companions of keys that a call assigns, and these were mentioned from the
start (`Standard.companions`): the rename was carried out, and does nothing now.
The other passes have nothing to do on what they gave, so the document is the
same after a second normalization: `IntentDocument.normalize_normalize`.
-/

namespace IntentGraph

/-! ## Nothing left to do -/

/-- On what `g` gives `f` has nothing to do, where it had nothing to do before
or was `done`. -/
def Settles {α : Type} (done : Prop) (f g : α → α) : Prop :=
  ∀ x, done ∨ f x = x → f (g x) = g x

namespace Settles

variable {α : Type} {done : Prop} {f g : α → α}

theorem map (h : Settles done f g) :
    Settles done (List.map f) (List.map g) := by
  intro xs hxs
  rw [List.map_map]
  refine List.map_congr_left fun x hx => h x (hxs.imp_right fun heq => ?_)
  exact List.map_inj_left.1 (heq.trans (List.map_id xs).symm) x hx

theorem optionMap (h : Settles done f g) :
    Settles done (Option.map f) (Option.map g) := by
  intro x? hx?
  cases x? with
  | none => rfl
  | some x => exact congrArg some (h x (hx?.imp_right Option.some.inj))

/-- What is settled at each key is settled in the whole collection. -/
theorem mapValues {f g : String → Json → Json}
    (h : ∀ key, Settles done (f key) (g key)) :
    Settles done (Fields.mapValues f) (Fields.mapValues g) := by
  refine Settles.map ?_
  rintro ⟨key, value⟩ hentry
  exact congrArg (Prod.mk key)
    (h key value (hentry.imp_right fun heq => (Prod.mk.inj heq).2))

end Settles

/-- A revision has nothing to do. -/
def Standard.settled (r : Revision) : Standard where
  action a := r.action a = a
  component c := r.component c = c
  page p := r.page p = p
  state fields := r.state fields = fields

theorem spares_settled (r : Revision) : r.Spares (.settled r) :=
  ⟨fun _ h => h, fun _ h => h, fun _ h => h, fun _ h => h⟩

/-! ## Renames of keys, texts and values -/

namespace KeyRename

variable {r r' : KeyRename}

section values

variable (hr : Key.filterAlias? r.old = some r.new)
include hr

theorem onKey_eq_self_iff {key : String} : r.onKey key = key ↔ key ≠ r.old := by
  unfold onKey
  constructor
  · rintro hkey rfl
    rw [if_pos rfl] at hkey
    exact old_ne_new hr hkey.symm
  · exact fun hne => if_neg hne

theorem onTemplates_eq_self_iff {value : Json} :
    r.onTemplates value = value ↔ r.old ∉ Template.keysOf value :=
  Template.renameIn_eq_self_iff (Key.isKey_meant hr) (old_ne_new hr)

theorem onKeyText_eq_self_iff {s : String} :
    r.onKeyText s = s ↔ s ≠ r.old ∧ r.old ∉ Template.keysIn s := by
  by_cases hs : s = r.old
  · rw [hs, onKeyText_old hr]
    simp [(old_ne_new hr).symm]
  · rw [onKeyText, onKey, if_neg hs, renameInString_eq_self_iff hr]
    simp [hs]

variable (hr' : Key.filterAlias? r'.old = some r'.new)
include hr'

/-- No rename makes an old key. -/
theorem onKey_ne_old {key : String} (h : r = r' ∨ key ≠ r.old) :
    r'.onKey key ≠ r.old := by
  unfold onKey
  split
  · intro hnew
    have hnone := Key.filterAlias?_of_filterAlias? hr'
    rw [hnew, hr] at hnone
    cases hnone
  · next hne =>
    rcases h with rfl | h
    · exact hne
    · exact h

theorem settles_onKey : Settles (r = r') r.onKey r'.onKey := by
  intro key hkey
  rw [onKey_eq_self_iff hr] at hkey ⊢
  exact onKey_ne_old hr hr' hkey

theorem settles_onKeyText : Settles (r = r') r.onKeyText r'.onKeyText := by
  intro s hs
  rw [onKeyText_eq_self_iff hr] at hs ⊢
  constructor
  · intro hold
    have hbrace : '\x7b' ∉ (r'.onKeyText s).toList := by
      rw [hold]
      exact Key.not_mem_brace_of_filterAlias? hr
    refine onKey_ne_old hr hr' (hs.imp_right And.left) ?_
    rw [← hold, onKeyText, Template.renameInString_eq_self hbrace]
  · rw [onKeyText, Template.keysIn_renameInString (Key.isKey_meant hr'),
      keysIn_onKey hr']
    intro hold
    obtain ⟨key, hkey, heq⟩ := List.mem_map.1 hold
    refine onKey_ne_old hr hr' (hs.imp_right fun hs => ?_) heq
    rintro rfl
    exact hs.2 hkey

/-- A value that is renamed once as a whole and once in its templates is
settled, if it is as a whole and no reference is added. -/
theorem settles_onTemplates_comp {f g : Json → Json}
    (hfixed : ∀ value, r.onTemplates (f value) = value → f value = value)
    (hkeys : ∀ value, ∀ key ∈ Template.keysOf (g value),
      key ∈ Template.keysOf value)
    (hsettles : Settles (r = r') f fun value => r'.onTemplates (g value)) :
    Settles (r = r') (fun value => r.onTemplates (f value))
      fun value => r'.onTemplates (g value) := by
  intro value hvalue
  have hwhole : r = r' ∨ f value = value := hvalue.imp_right (hfixed value)
  have htemplates : r = r' ∨ r.old ∉ Template.keysOf value := by
    refine hvalue.imp_right fun heq => (onTemplates_eq_self_iff hr).1 ?_
    exact (congrArg r.onTemplates (hfixed value heq)).symm.trans heq
  show r.onTemplates (f (r'.onTemplates (g value))) = r'.onTemplates (g value)
  rw [hsettles value hwhole, onTemplates_eq_self_iff hr, keysOf_onTemplates hr']
  intro hold
  obtain ⟨key, hkey, heq⟩ := List.mem_map.1 hold
  refine onKey_ne_old hr hr' (htemplates.imp_right fun hnone => ?_) heq
  rintro rfl
  exact hnone (hkeys value _ hkey)

theorem settles_onTemplates : Settles (r = r') r.onTemplates r'.onTemplates :=
  settles_onTemplates_comp hr hr' (fun _ _ => rfl) (fun _ _ hkey => hkey)
    fun _ _ => rfl

theorem settles_onPayload : Settles (r = r') r.onPayload r'.onPayload :=
  Settles.mapValues fun _ => settles_onTemplates hr hr'

/-- A value that is taken as a key. -/
theorem settles_onKeyValue :
    Settles (r = r') (fun value => r.onTemplates (r.onKeyValue value))
      fun value => r'.onTemplates (r'.onKeyValue value) := by
  intro value hvalue
  cases value with
  | string s =>
    exact congrArg Json.string
      (settles_onKeyText hr hr' s (hvalue.imp_right Json.string.inj))
  | _ => exact settles_onTemplates hr hr' _ hvalue

end values

/-! ## Renames of maps -/

section maps

variable (hr : Key.filterAlias? r.old = some r.new)
include hr

theorem old_not_mem_keys_onMap (hr' : Key.filterAlias? r'.old = some r'.new)
    {fields : Fields} (h : r = r' ∨ r.old ∉ Fields.keys fields) :
    r.old ∉ Fields.keys (r'.onMap fields) := by
  intro hold
  obtain ⟨value, hentry⟩ := Fields.mem_keys.1 hold
  obtain ⟨key, hkey, heq⟩ := exists_of_mem_onMap hentry
  refine onKey_ne_old hr hr' (h.imp_right fun hnone => ?_) heq.symm
  rintro rfl
  exact hnone (Fields.mem_keys.2 ⟨value, hkey⟩)

theorem onMap_eq_self_iff {fields : Fields} :
    r.onMap fields = fields ↔ r.old ∉ Fields.keys fields := by
  constructor
  · intro hkeep
    rw [← hkeep]
    exact old_not_mem_keys_onMap hr hr (.inl rfl)
  · intro hnone
    rw [onMap, Fields.get?_eq_none_iff.2 hnone]

theorem settles_onMap (hr' : Key.filterAlias? r'.old = some r'.new) :
    Settles (r = r') r.onMap r'.onMap := by
  intro fields hfields
  rw [onMap_eq_self_iff hr] at hfields ⊢
  exact old_not_mem_keys_onMap hr hr' hfields

/-- A value that is taken as a map. -/
theorem settles_onMapValue (hr' : Key.filterAlias? r'.old = some r'.new) :
    Settles (r = r') (fun value => r.onTemplates (r.onMapValue value))
      fun value => r'.onTemplates (r'.onMapValue value) := by
  refine settles_onTemplates_comp hr hr' ?_
    (fun _ _ => mem_keysOf_of_onMapValue) ?_
  · intro value hvalue
    cases value with
    | object fields =>
      -- templates leave the keys alone, and the old one is gone from them
      have hkeys : Fields.keys (r.onMap fields) = Fields.keys fields := by
        rw [← congrArg Fields.keys (Json.object.inj hvalue),
          Json.keys_mapStringsOfFields]
      refine congrArg Json.object ((onMap_eq_self_iff hr).2 ?_)
      rw [← hkeys]
      exact old_not_mem_keys_onMap hr hr (.inl rfl)
    | _ => rfl
  · intro value hvalue
    cases value with
    | object fields =>
      refine congrArg Json.object ((onMap_eq_self_iff hr).2 ?_)
      rw [Json.keys_mapStringsOfFields]
      refine old_not_mem_keys_onMap hr hr' (hvalue.imp_right fun heq => ?_)
      exact (onMap_eq_self_iff hr).1 (Json.object.inj heq)
    | _ => rfl

end maps

/-! ## Renames of the parts of a document -/

section parts

variable (hr : Key.filterAlias? r.old = some r.new)
  (hr' : Key.filterAlias? r'.old = some r'.new)
include hr hr'

theorem settles_onConfig : Settles (r = r') r.onConfig r'.onConfig := by
  refine Settles.mapValues fun name => ?_
  by_cases hkey : keyEntries.contains name = true
  · simp only [if_pos hkey]
    exact settles_onKeyValue hr hr'
  · by_cases hupdates : name = ConfigKey.updates
    · simp only [if_neg hkey, if_pos hupdates]
      exact settles_onMapValue hr hr'
    · simp only [if_neg hkey, if_neg hupdates]
      exact settles_onTemplates hr hr'

theorem settles_onStep : Settles (r = r') r.onStep r'.onStep := by
  intro step hstep
  cases step with
  | stateMutation key value source =>
    have hfields := hstep.imp_right Step.stateMutation.inj
    have hkey := settles_onKey hr hr' key (hfields.imp_right fun heq => heq.1)
    have hvalue := (settles_onTemplates hr hr').optionMap value
      (hfields.imp_right fun heq => heq.2.1)
    have hsource :=
      (settles_onKey hr hr').optionMap source
        (hfields.imp_right fun heq => heq.2.2)
    simp only [onStep, hkey, hvalue, hsource]
  | integrationCall capability params =>
    have hparams := settles_onPayload hr hr' params
      (hstep.imp_right fun heq => (Step.integrationCall.inj heq).2)
    simp only [onStep, hparams]
  | navigate page => rfl
  | emit event => rfl
  | unknown raw => rfl

theorem settles_onTrigger : Settles (r = r') r.onTrigger r'.onTrigger := by
  intro trigger htrigger
  cases trigger with
  | stateChange key =>
    exact congrArg Trigger.stateChange
      (settles_onKey hr hr' key (htrigger.imp_right Trigger.stateChange.inj))
  | _ => rfl

theorem settles_onDataSource :
    Settles (r = r') r.onDataSource r'.onDataSource := by
  intro source hsource
  cases source with
  | state key =>
    exact congrArg DataSource.state
      (settles_onKey hr hr' key (hsource.imp_right DataSource.state.inj))
  | derived key expr =>
    have hkey := settles_onKey hr hr' key
      (hsource.imp_right fun heq => (DataSource.derived.inj heq).1)
    simp only [onDataSource, hkey]
  | _ => rfl

theorem settles_onEvent : Settles (r = r') r.onEvent r'.onEvent := by
  intro e he
  have hupdate := (settles_onKey hr hr').optionMap e.stateUpdate
    (he.imp_right (congrArg ComponentEvent.stateUpdate))
  have hargs :=
    settles_onPayload hr hr' e.args
      (he.imp_right (congrArg ComponentEvent.args))
  simp only [onEvent, hupdate, hargs]

theorem settles_onAction : Settles (r = r') r.onAction r'.onAction := by
  intro a ha
  have hconfig :=
    settles_onConfig hr hr' a.config (ha.imp_right (congrArg Action.config))
  have hsteps :=
    (settles_onStep hr hr').map a.steps (ha.imp_right (congrArg Action.steps))
  have htriggers := (settles_onTrigger hr hr').map a.triggeredBy
    (ha.imp_right (congrArg Action.triggeredBy))
  have hinputs := (settles_onKey hr hr').map.optionMap a.inputs
    (ha.imp_right (congrArg Action.inputs))
  simp only [onAction, hconfig, hsteps, htriggers]
  rw [hinputs]

theorem settles_onComponent :
    Settles (r = r') r.onComponent r'.onComponent := by
  have hproperty : ∀ name, Settles (r = r')
      (fun value => r.onTemplates
        (if Component.bindingProperties.contains name
          then r.onKeyValue value else value))
      (fun value => r'.onTemplates
        (if Component.bindingProperties.contains name then r'.onKeyValue value
          else value)) := by
    intro name
    by_cases hbinding : Component.bindingProperties.contains name = true
    · simp only [if_pos hbinding]
      exact settles_onKeyValue hr hr'
    · simp only [if_neg hbinding]
      exact settles_onTemplates hr hr'
  intro c hc
  have hproperties := Settles.mapValues hproperty c.properties
    (hc.imp_right (congrArg Component.properties))
  have hsource := (settles_onDataSource hr hr').optionMap c.dataSource
    (hc.imp_right (congrArg Component.dataSource))
  have hevents :=
    (settles_onEvent hr hr').map c.events
      (hc.imp_right (congrArg Component.events))
  simp only [onComponent, hproperties, hsource, hevents]

end parts

/-! ## Renames of documents -/

/-- A rename has nothing to do once it was carried out. -/
theorem settled_of_carriedOut (hr : Key.filterAlias? r.old = some r.new) :
    r.revision.Brings .any (.settled r.revision) where
  action a _ := settles_onAction hr hr a (.inl rfl)
  component c _ := settles_onComponent hr hr c (.inl rfl)
  page _ _ := rfl
  state fields _ := settles_onMap hr hr fields (.inl rfl)

/-- Another rename gives it nothing to do. -/
theorem brings_settled (hr : Key.filterAlias? r.old = some r.new)
    (hr' : Key.filterAlias? r'.old = some r'.new) :
    r'.revision.Brings (.settled r.revision) (.settled r.revision) where
  action a h := settles_onAction hr hr' a (.inr h)
  component c h := settles_onComponent hr hr' c (.inr h)
  page _ _ := rfl
  state fields h := settles_onMap hr hr' fields (.inr h)

/-- Of a run of renames that were carried out none has anything to do. -/
theorem settled_of_mem {renames : List KeyRename}
    (halias : ∀ r ∈ renames, Key.filterAlias? r.old = some r.new)
    (hr : r ∈ renames) (d : IntentDocument) :
    (renames.foldl (fun d r => r.revision.onDocument d) d).Meets
      (.settled r.revision) := by
  induction renames generalizing d with
  | nil => cases hr
  | cons r' renames ih =>
    have hrest : ∀ r ∈ renames, Key.filterAlias? r.old = some r.new :=
      fun r hr => halias r (List.mem_cons_of_mem _ hr)
    rcases List.mem_cons.1 hr with rfl | hr
    · rw [List.foldl_cons]
      refine IntentDocument.Meets.foldl_rename ?_ fun r' hr' =>
        brings_settled (halias r List.mem_cons_self) (hrest r' hr')
      exact d.meets_any.onDocument
        (settled_of_carriedOut (halias r List.mem_cons_self))
    · exact ih hrest hr _

/-- A run of renames that have nothing to do. -/
theorem foldl_eq_self {renames : List KeyRename} {d : IntentDocument}
    (h : ∀ r ∈ renames, d.Meets (.settled r.revision)) :
    renames.foldl (fun d r => r.revision.onDocument d) d = d := by
  induction renames with
  | nil => rfl
  | cons r renames ih =>
    rw [List.foldl_cons,
      (h r List.mem_cons_self).onDocument_eq (spares_settled r.revision)]
    exact ih fun r' hr' => h r' (List.mem_cons_of_mem _ hr')

/-! ## Sentinels -/

section sentinels

variable {sentinel : String}
  (hsentinel : Text.occursIn Template.opening sentinel.toList = false)
  (hr : Key.filterAlias? r.old = some r.new)
include hr

theorem filterSentinels_brings_settled :
    (filterSentinels sentinel).Brings (.settled r.revision)
      (.settled r.revision) where
  action _ h := h
  component _ h := h
  page _ h := h
  state fields h := by
    show r.onMap (withFilterSentinels sentinel fields)
      = withFilterSentinels sentinel fields
    rw [onMap_eq_self_iff hr, withFilterSentinels, Fields.keys_mapValues]
    exact (onMap_eq_self_iff hr).1 h

include hsentinel

/-- A property that is filled refers to no other keys. -/
theorem settles_fillProperty (valueKey name : String) : Settles False
    (fun value => r.onTemplates
      (if Component.bindingProperties.contains name
        then r.onKeyValue value else value))
    (Component.fillProperty sentinel valueKey name) := by
  intro value hvalue
  have hkeep := hvalue.resolve_left not_false
  by_cases hname : name = "options"
  · have hbinding : ¬ Component.bindingProperties.contains name = true := by
      rw [hname]
      decide
    simp only [if_neg hbinding] at hkeep ⊢
    rw [onTemplates_eq_self_iff hr] at hkeep ⊢
    intro hold
    obtain ⟨s, hs, hkey⟩ := List.mem_flatMap.1 hold
    rcases Component.mem_strings_fillProperty hs with hs | rfl
    · exact hkeep (List.mem_flatMap.2 ⟨s, hs, hkey⟩)
    · rw [Template.keysIn, Template.keys_pieces_eq_nil hsentinel] at hkey
      cases hkey
  · rw [Component.fillProperty_of_ne hname]
    exact hkeep

theorem settles_withOptionSentinels :
    Settles False r.onComponent (Component.withOptionSentinels sentinel) := by
  intro c hc
  have hkeep := hc.resolve_left not_false
  by_cases hselect : c.kind.isSelectLike = true
  · have hproperties := Settles.mapValues
      (settles_fillProperty hsentinel hr c.optionValueKey) c.properties
      (.inr (congrArg Component.properties hkeep))
    have hsource :
        (Component.fillSource sentinel c.optionValueKey c.dataSource).map
          r.onDataSource
        = Component.fillSource sentinel c.optionValueKey c.dataSource := by
      unfold Component.fillSource
      split
      · rfl
      · exact congrArg Component.dataSource hkeep
    have hevents : c.events.map r.onEvent = c.events :=
      congrArg Component.events hkeep
    rw [Component.withOptionSentinels_of_select hselect]
    simp only [onComponent, hproperties, hsource, hevents]
  · rw [Component.withOptionSentinels, if_neg hselect]
    exact hkeep

theorem optionSentinels_brings_settled :
    (optionSentinels sentinel).Brings (.settled r.revision)
      (.settled r.revision) where
  action _ h := h
  component c h := settles_withOptionSentinels hsentinel hr c (.inr h)
  page _ h := h
  state _ h := h

end sentinels

end KeyRename

/-! ## Renames that are asked for again -/

/-- Every ad-hoc spelling that is a companion of what an action assigns is one
of some keys. -/
def Standard.companions (keys : List String) : Standard :=
  { Standard.any with
    action a := ∀ key ∈ a.companionKeys, Key.filterAlias? key
      ≠ none → key ∈ keys }

theorem Key.mem_dot_meant {key new : String}
    (h : Key.filterAlias? key = some new) :
    '.' ∈ new.toList := by
  obtain ⟨_, name, _, hnew⟩ := Key.exists_name_of_filterAlias? h
  rw [hnew]
  exact List.mem_append_right _ List.mem_cons_self

namespace KeyRename

variable {r : KeyRename}

/-- A companion that is an ad-hoc spelling was there before the rename: the
assigned key was not renamed, or it would be in the namespace of filters now. -/
theorem mem_companionKeys_of_onAction
    (hr : Key.filterAlias? r.old = some r.new) {a : Action} {key : String}
    (hkey : key ∈ (r.onAction a).companionKeys)
    (halias : Key.filterAlias? key ≠ none) : key ∈ a.companionKeys := by
  obtain ⟨new, hnew⟩ := Option.ne_none_iff_exists'.1 halias
  obtain ⟨hcall, assigned', hassigned', hcompanion⟩ :=
    Action.mem_companionKeys_iff.1 hkey
  rw [Action.assignedKey?, configText?_onAction hr a (by decide)] at hassigned'
  obtain ⟨assigned, hassigned, rfl⟩ := Option.map_eq_some_iff.1 hassigned'
  -- an ad-hoc spelling has neither a brace nor a dot, so the assigned key has
  -- none
  have hsub : ∀ c ∈ (r.onKeyText assigned).toList, c ∈ key.toList := by
    intro c hc
    simp only [List.mem_cons, List.not_mem_nil, or_false] at hcompanion
    rcases hcompanion with rfl | rfl
    · rw [Key.status, String.toList_append]
      exact List.mem_append_left _ hc
    · rw [Key.error, String.toList_append]
      exact List.mem_append_left _ hc
  have hsame : r.onKeyText assigned = r.onKey assigned :=
    Template.renameInString_eq_self fun hbrace =>
      Key.not_mem_brace_of_filterAlias? hnew (hsub _ hbrace)
  -- had it been renamed, the namespace of filters would have put a dot in it
  have hne : assigned ≠ r.old := by
    rintro rfl
    refine Key.not_mem_dot_of_filterAlias? hnew (hsub _ ?_)
    rw [onKeyText_old hr]
    exact Key.mem_dot_meant hr
  rw [hsame, onKey, if_neg hne] at hcompanion
  exact Action.mem_companionKeys_iff.2 ⟨hcall, assigned, hassigned, hcompanion⟩

theorem brings_companions (hr : Key.filterAlias? r.old = some r.new)
    (keys : List String) :
    r.revision.Brings (.companions keys) (.companions keys) where
  action _ h := fun key hkey halias =>
    h key (mem_companionKeys_of_onAction hr hkey halias) halias
  component _ h := h
  page _ h := h
  state _ h := h

end KeyRename

namespace IntentDocument

variable {settings : NormalizeSettings} {d : IntentDocument}

theorem meets_companions (d : IntentDocument) :
    d.Meets (.companions d.mentionedKeys) :=
  { d.meets_any with
    action := fun a ha _ hkey _ => mem_mentionedKeys.2 (.inr (.inr ⟨a, ha,
      List.mem_append_left _ (Action.mem_mutatedKeys_iff.2 (.inr hkey))⟩)) }

/-- What the sentinels keep holds after normalization if it holds after the
renames. -/
theorem Meets.normalize_of_withFilterKeys {s : Standard}
    (h : (d.respelled settings).withFilterKeys.Meets s)
    (hfilter : (filterSentinels settings.filterSentinel).Brings s s)
    (hoption : (optionSentinels settings.filterSentinel).Brings s s) :
    (d.normalize settings).1.Meets s := by
  rw [fst_normalize]
  exact (h.onDocument hfilter).onDocument hoption

/-- A companion that is an ad-hoc spelling after normalization was mentioned
before the renames. -/
theorem meets_companions_normalize (settings : NormalizeSettings)
    (d : IntentDocument) :
    (d.normalize settings).1.Meets
      (.companions (d.respelled settings).mentionedKeys) := by
  refine Meets.normalize_of_withFilterKeys ?_
    ⟨fun _ h => h, fun _ h => h, fun _ h => h, fun _ h => h⟩
    ⟨fun _ h => h, fun _ h => h, fun _ h => h, fun _ h => h⟩
  exact (d.respelled settings).meets_companions.foldl_rename fun r hr =>
    KeyRename.brings_companions (mem_filterRenames.1 hr).2 _

theorem meets_lowered_normalize (settings : NormalizeSettings)
    (d : IntentDocument) :
    (d.normalize settings).1.Meets (.lowered settings) := by
  refine Meets.normalize_of_withFilterKeys
    (d.meets_respelled settings).withFilterKeys
    ⟨fun _ h => h, fun _ h => h, fun _ h => h, fun _ h => h⟩
    ⟨fun _ h => h, fun c h => ?_, fun _ h => h, fun _ h => h⟩
  show ∀ id ∈ (c.withOptionSentinels settings.filterSentinel).actionRefs,
    IsCanonical id
  rw [Component.actionRefs_withOptionSentinels]
  exact h

/-- What a normalized document asks to be renamed was renamed. -/
theorem mem_filterRenames_of_normalize {r : KeyRename}
    (hsentinel :
      Text.occursIn Template.opening settings.filterSentinel.toList = false)
    (hr : r ∈ (d.normalize settings).1.filterRenames) :
    r ∈ (d.respelled settings).filterRenames := by
  obtain ⟨hkey, halias⟩ := mem_filterRenames.1 hr
  refine mem_filterRenames.2 ⟨?_, halias⟩
  have hright := d.meets_spelledRight_normalize settings
  have hnot : ∀ {key : String}, Key.filterAlias? key = none → key ≠ r.old := by
    rintro key hnone rfl
    rw [hnone] at halias
    cases halias
  -- only a companion can still be spelled another way, and it was there before
  rcases mem_mentionedKeys.1 hkey
    with ⟨fields, hfields, hkey⟩ | ⟨c, hc, hkey⟩ | ⟨a, ha, hkey⟩
  · exact absurd rfl (hnot (hright.state fields hfields _ hkey))
  · rcases List.mem_append.1 hkey with hkey | hkey
    · rcases (hright.component c hc).1 _ hkey with hnone | hmem
      · exact absurd rfl (hnot hnone)
      · rw [Template.keysIn, Template.keys_pieces_eq_nil hsentinel] at hmem
        cases hmem
    · exact absurd rfl (hnot ((hright.component c hc).2 _ hkey))
  · rcases List.mem_append.1 hkey with hkey | hkey
    · rcases Action.mem_mutatedKeys_iff.1 hkey with hkey | hkey
      · exact absurd rfl (hnot ((hright.action a ha).1 _ hkey))
      · refine (d.meets_companions_normalize settings).action a ha r.old hkey ?_
        rw [halias]
        exact Option.some_ne_none _
    · exact absurd rfl (hnot ((hright.action a ha).2 _ hkey))

/-! ## Normalization twice -/

/-- The renames have nothing to do on a normalized document. -/
theorem withFilterKeys_normalize
    (hsentinel :
      Text.occursIn Template.opening settings.filterSentinel.toList = false)
    (d : IntentDocument) :
    (d.normalize settings).1.withFilterKeys = (d.normalize settings).1 := by
  refine KeyRename.foldl_eq_self fun r hr => ?_
  have hr := mem_filterRenames_of_normalize hsentinel hr
  have halias : ∀ r ∈ (d.respelled settings).filterRenames,
      Key.filterAlias? r.old = some r.new :=
    fun r hr => (mem_filterRenames.1 hr).2
  exact Meets.normalize_of_withFilterKeys (KeyRename.settled_of_mem halias hr _)
    (KeyRename.filterSentinels_brings_settled (halias r hr))
    (KeyRename.optionSentinels_brings_settled hsentinel (halias r hr))

/-- State and options are filled at once, whatever the sentinel is. -/
theorem sentinels_normalize (settings : NormalizeSettings)
    (d : IntentDocument) :
    (filterSentinels settings.filterSentinel).onDocument
        (d.normalize settings).1 = (d.normalize settings).1
      ∧ (optionSentinels settings.filterSentinel).onDocument
        (d.normalize settings).1 = (d.normalize settings).1 := by
  have hfilled : (filterSentinels settings.filterSentinel).Brings .any
      (.settled (filterSentinels settings.filterSentinel)) :=
    ⟨fun _ _ => rfl, fun _ _ => rfl, fun _ _ => rfl,
      fun fields _ => withFilterSentinels_withFilterSentinels fields⟩
  -- filling options leaves the state alone
  have hkept : (optionSentinels settings.filterSentinel).Brings
      (.settled (filterSentinels settings.filterSentinel))
      (.settled (filterSentinels settings.filterSentinel)) :=
    ⟨fun _ h => h, fun _ _ => rfl, fun _ h => h, fun _ h => h⟩
  have hoptions : (optionSentinels settings.filterSentinel).Brings .any
      (.settled (optionSentinels settings.filterSentinel)) :=
    ⟨fun _ _ => rfl,
      fun _ _ => Component.withOptionSentinels_withOptionSentinels,
      fun _ _ => rfl, fun _ _ => rfl⟩
  have hbefore :=
    (d.respelled settings).withFilterKeys.meets_any.onDocument hfilled
  rw [fst_normalize]
  exact ⟨(hbefore.onDocument hkept).onDocument_eq (spares_settled _),
    ((meets_any _).onDocument hoptions).onDocument_eq (spares_settled _)⟩

/-- A normalized document is its own normalization. -/
theorem normalize_normalize (settings : NormalizeSettings)
    (hsentinel :
      Text.occursIn Template.opening settings.filterSentinel.toList = false)
    (d : IntentDocument) :
    ((d.normalize settings).1.normalize settings).1
      = (d.normalize settings).1 := by
  have hrespelled := (d.meets_lowered_normalize settings).respelled_eq
  have hkeys := withFilterKeys_normalize hsentinel d
  obtain ⟨hstate, hoptions⟩ := d.sentinels_normalize settings
  rw [fst_normalize settings (d.normalize settings).1, hrespelled, hkeys,
    hstate, hoptions]

/-- A panel of filters: two are spelled ad hoc, nothing is chosen yet, and the
call assigns the word "filter" alone. -/
def filterPanel : IntentDocument where
  intentType := .create
  mutation := { Mutation.empty with
    componentsAdded := [
      ⟨"region", .select, [("bindKey", .string "regionFilter"),
        ("label", .string "\x7b\x7b state.filter_status \x7d\x7d"),
        ("options", .array [.string "", .string "north"])], none, [], [], none⟩]
    actionsAdded := [
      { Action.bare "Load Filters" .integrationCall with
        config := [(ConfigKey.assignTo, .string "filter")]
        triggeredBy :=
          [.lifecycle Lifecycle.appStart, .stateChange "filterStatus"] }]
    stateAdded := [("filter_status", .null), ("regionFilter", .string "")] }
  prior := none
  executionGraph := none

/-- Normalization changes the panel, and a key is left for which a rename is
asked again. It is carried out without effect. -/
theorem normalize_filterPanel :
    Text.occursIn Template.opening
      Configuration.default.normalize.filterSentinel.toList = false
      ∧ (filterPanel.normalize Configuration.default.normalize).1 ≠ filterPanel
      ∧ (filterPanel.normalize Configuration.default.normalize).1.filterRenames
        = [⟨"filterError", "filters.error"⟩, ⟨"filterStatus", "filters.status"⟩]
      ∧ ((filterPanel.normalize Configuration.default.normalize).1.normalize
          Configuration.default.normalize).1
        = (filterPanel.normalize Configuration.default.normalize).1 := by
  have hsentinel : Text.occursIn Template.opening
      Configuration.default.normalize.filterSentinel.toList = false := by
      decide +kernel
  refine ⟨hsentinel, by decide +kernel, by decide +kernel, ?_⟩
  exact normalize_normalize Configuration.default.normalize
    hsentinel filterPanel

end IntentDocument

end IntentGraph
