import IntentGraph.Proofs.Key.FilterAlias
import IntentGraph.Proofs.Normalization
import IntentGraph.Proofs.Normalization.Sentinels
import IntentGraph.Proofs.Normalization.Standard

/-!
# What is tidy stays as it is

Normalization brings every document to the standard `Standard.tidy`: ids in
canonical spelling, no kind to be migrated, no source with a target, and a
sentinel wherever something was unset. All its passes but one spare what meets
this standard. The one is the renaming of filter keys, and so normalization
leaves a tidy document alone iff it finds no key to rename
(`IntentDocument.Meets.normalize_eq`,
`IntentDocument.Meets.filterRenames_eq_nil`).
-/

namespace IntentGraph

/-! ## Standards of the passes -/

/-- Nothing is asked. -/
def Standard.any : Standard :=
  ⟨fun _ => True, fun _ => True, fun _ => True, fun _ => True⟩

/-- Ids of actions and references to them are canonical. -/
def Standard.canonical : Standard where
  action a := IsCanonical a.id
  component c := ∀ id ∈ c.actionRefs, IsCanonical id
  page p := ∀ e ∈ p.events, IsCanonical e.actionId
  state _ := True

/-- No kind is to be migrated either. -/
def Standard.migrated (settings : NormalizeSettings) : Standard :=
  { Standard.canonical with
    action a := IsCanonical a.id ∧ a.legacyKind? settings = none }

/-- No action has a source with a target either. -/
def Standard.lowered (settings : NormalizeSettings) : Standard :=
  { Standard.canonical with
    action a := IsCanonical a.id ∧ a.legacyKind? settings = none
      ∧ a.sourceTarget? = none }

/-- No filter state is unset either. -/
def Standard.filled (settings : NormalizeSettings) : Standard :=
  { Standard.lowered settings with state := IsFilledState }

/-- The parts of a normalized document. -/
def Standard.tidy (settings : NormalizeSettings) : Standard :=
  { Standard.filled settings with
    component c := (∀ id ∈ c.actionRefs, IsCanonical id)
      ∧ c.IsFilled settings.filterSentinel }

variable {settings : NormalizeSettings}

/-! ## Spelling -/

theorem brings_canonicalIds : canonicalIds.Brings .any .canonical where
  action a _ := isCanonical_canonicalId a.id
  component c _ := by
    intro id hid
    simp only [canonicalIds, Component.actionRefs, List.filterMap_map,
      List.mem_filterMap, Function.comp_apply, Option.map_eq_some_iff] at hid
    obtain ⟨_, _, raw, _, rfl⟩ := hid
    exact isCanonical_canonicalId raw
  page p _ := by
    intro e he
    obtain ⟨e', _, rfl⟩ := List.mem_map.1 he
    exact isCanonical_canonicalId e'.actionId
  state _ _ := trivial

namespace Action

theorem legacyKind?_withMigratedKind (a : Action) :
    (a.withMigratedKind settings).legacyKind? settings = none := by
  unfold withMigratedKind
  split
  · assumption
  · rfl

theorem kind_withCopyStep (a : Action) : a.withCopyStep.kind = a.kind := by
  rw [withCopyStep]
  split <;> rfl

theorem sourceTarget?_eq_none_iff {a : Action} :
    a.sourceTarget? = none
      ↔ a.configText? ConfigKey.source = none
        ∨ a.configText? ConfigKey.target = none := by
  unfold sourceTarget?
  cases a.configText? ConfigKey.source with
  | none => simp
  | some source => cases a.configText? ConfigKey.target <;> simp

theorem sourceTarget?_withCopyStep (a : Action) :
    a.withCopyStep.sourceTarget? = none := by
  unfold withCopyStep
  split
  · assumption
  · refine sourceTarget?_eq_none_iff.2 (.inl ?_)
    rw [configText?]
    show (((Fields.get?
      ((a.config.erase ConfigKey.source).erase ConfigKey.target)
      ConfigKey.source).bind _).filter _) = _
    rw [Fields.get?_erase_of_ne (by decide), Fields.get?_erase_self]
    rfl

end Action

theorem brings_migratedKinds :
    (migratedKinds settings).Brings .canonical (.migrated settings) where
  action a h := by
    refine ⟨?_, a.legacyKind?_withMigratedKind⟩
    show IsCanonical (a.withMigratedKind settings).id
    rw [a.id_withMigratedKind]
    exact h
  component _ h := h
  page _ h := h
  state _ h := h

theorem brings_loweredCopies :
    loweredCopies.Brings (.migrated settings) (.lowered settings) where
  action a h := by
    refine ⟨?_, ?_, a.sourceTarget?_withCopyStep⟩
    · show IsCanonical a.withCopyStep.id
      rw [a.id_withCopyStep]
      exact h.1
    · show a.withCopyStep.legacyKind? settings = none
      rw [Action.legacyKind?, a.kind_withCopyStep]
      exact h.2
  component _ h := h
  page _ h := h
  state _ h := h

/-! ## Renames -/

namespace KeyRename

variable {r : KeyRename}

/-- What becomes of a text that is taken as a key. -/
def onKeyText (r : KeyRename) (s : String) : String :=
  Template.renameInString r.old r.new (r.onKey s)

/-- The empty text is no ad-hoc spelling. -/
theorem old_ne_empty (hr : Key.filterAlias? r.old = some r.new) :
    r.old ≠ "" := by
  intro hold
  rw [hold] at hr
  cases hr

theorem onKeyText_eq_empty_iff (hr : Key.filterAlias? r.old = some r.new)
    {s : String} :
    r.onKeyText s = "" ↔ s = "" := by
  have hnew : r.new ≠ "" := by
    intro hempty
    obtain ⟨_, name, _, hname⟩ := Key.exists_name_of_filterAlias? hr
    rw [hempty] at hname
    exact absurd hname (List.cons_ne_nil _ _).symm
  constructor
  · intro h
    -- an empty text has no braces, so nothing was renamed in it
    have hsame : r.onKeyText s = r.onKey s :=
      Template.renameInString_eq_self
        (by show '\x7b' ∉ (r.onKeyText s).toList; rw [h]; decide)
    rw [hsame, onKey] at h
    split at h
    · exact absurd h hnew
    · exact h
  · rintro rfl
    have hold : r.old ≠ "" := old_ne_empty hr
    simp [onKeyText, onKey, hold.symm, Template.renameInString, Text.occursIn,
      Template.opening]

/-- The nonempty text of a value that is renamed as a key. -/
theorem filter_text (hr : Key.filterAlias? r.old = some r.new)
    (value? : Option Json) :
    ((value?.map fun value => r.onTemplates (r.onKeyValue value)).bind
      Json.asString?).filter
        (· ≠ "")
      = ((value?.bind Json.asString?).filter (· ≠ "")).map r.onKeyText := by
  cases value? with
  | none => rfl
  | some value =>
    cases value with
    | string s =>
      show (some (r.onKeyText s)).filter (· ≠ "")
        = ((some s).filter (· ≠ "")).map r.onKeyText
      by_cases hs :
        s = "" <;> simp [Option.filter_some, hs, onKeyText_eq_empty_iff hr]
    | _ => rfl

/-- The text at an entry that is renamed as a key. -/
theorem configText?_onAction (hr : Key.filterAlias? r.old = some r.new)
    (a : Action) {key : String} (hkey : key ∈ keyEntries) :
    (r.onAction a).configText? key = (a.configText? key).map r.onKeyText := by
  have hget : (r.onAction a).config.get? key
      = (a.config.get? key).map fun value =>
        r.onTemplates (r.onKeyValue value) := by
    show Fields.get? (r.onConfig a.config) key = _
    rw [onConfig, Fields.get?_mapValues]
    congr 1
    funext value
    rw [if_pos (List.contains_iff_mem.2 hkey)]
  rw [Action.configText?, hget, filter_text hr, Action.configText?]

theorem brings_lowered (hr : Key.filterAlias? r.old = some r.new) :
    r.revision.Brings (.lowered settings) (.lowered settings) where
  action a h := by
    refine ⟨h.1, h.2.1, Action.sourceTarget?_eq_none_iff.2 ?_⟩
    show (r.onAction a).configText? _ = none
      ∨ (r.onAction a).configText? _ = none
    rw [configText?_onAction hr a (by decide),
      configText?_onAction hr a (by decide), Option.map_eq_none_iff,
      Option.map_eq_none_iff]
    exact Action.sourceTarget?_eq_none_iff.1 h.2.2
  component c h := by
    have hrefs : (r.onComponent c).actionRefs = c.actionRefs := by
      simp only [onComponent, Component.actionRefs, List.filterMap_map]
      rfl
    show ∀ id ∈ (r.onComponent c).actionRefs, IsCanonical id
    rw [hrefs]
    exact h
  page _ h := h
  state _ h := h

end KeyRename

namespace IntentDocument

variable {d : IntentDocument}

/-- What is renamed is an ad-hoc spelling. -/
theorem mem_filterRenames {r : KeyRename} :
    r ∈ d.filterRenames ↔ r.old ∈ d.mentionedKeys ∧ Key.filterAlias? r.old
      = some r.new := by
  obtain ⟨old, new⟩ := r
  simp only [filterRenames, List.mem_filterMap, Option.map_eq_some_iff,
    KeyRename.mk.injEq]
  constructor
  · rintro ⟨key, hkey, _, halias, rfl, rfl⟩
    exact ⟨hkey, halias⟩
  · rintro ⟨hkey, halias⟩
    exact ⟨old, hkey, new, halias, rfl, rfl⟩

theorem filterRenames_eq_nil_iff :
    d.filterRenames = []
      ↔ ∀ key ∈ d.mentionedKeys, Key.filterAlias? key = none := by
  rw [filterRenames, List.filterMap_eq_nil_iff]
  simp only [Option.map_eq_none_iff, KeySet.mem_members]

/-- A run of renames keeps a standard that each of them keeps. -/
theorem Meets.foldl_rename {s : Standard} {renames : List KeyRename}
    (h : d.Meets s) (hbrings : ∀ r ∈ renames, r.revision.Brings s s) :
    (renames.foldl (fun d r => r.revision.onDocument d) d).Meets s := by
  induction renames generalizing d with
  | nil => exact h
  | cons r renames ih =>
    exact ih (h.onDocument (hbrings r List.mem_cons_self)) fun r' hr' =>
      hbrings r' (List.mem_cons_of_mem _ hr')

theorem Meets.withFilterKeys (h : d.Meets (.lowered settings)) :
    d.withFilterKeys.Meets (.lowered settings) :=
  h.foldl_rename fun _ hr => KeyRename.brings_lowered (mem_filterRenames.1 hr).2

end IntentDocument

/-! ## Sentinels -/

theorem brings_filterSentinels (hs : settings.filterSentinel ≠ "") :
    (filterSentinels settings.filterSentinel).Brings (.lowered settings)
      (.filled settings) where
  action _ h := h
  component _ h := h
  page _ h := h
  state fields _ := isFilledState_withFilterSentinels hs fields

theorem brings_optionSentinels (hs : settings.filterSentinel ≠ "") :
    (optionSentinels settings.filterSentinel).Brings (.filled settings)
      (.tidy settings) where
  action _ h := h
  component c h := by
    refine ⟨?_, Component.isFilled_withOptionSentinels hs⟩
    show ∀ id ∈ (c.withOptionSentinels settings.filterSentinel).actionRefs,
      IsCanonical id
    rw [Component.actionRefs_withOptionSentinels]
    exact h
  page _ h := h
  state _ h := h

/-! ## Normalization -/

/-- Ids, kinds, and sources with targets in their normal form: the passes before
renaming. -/
def IntentDocument.respelled (settings : NormalizeSettings)
    (d : IntentDocument) :
    IntentDocument :=
  loweredCopies.onDocument
    ((migratedKinds settings).onDocument (canonicalIds.onDocument d))

namespace IntentDocument

variable {d : IntentDocument}

theorem meets_any (d : IntentDocument) : d.Meets .any :=
  ⟨fun _ _ => trivial, fun _ _ => trivial, fun _ _ => trivial,
    fun _ _ => trivial⟩

/-- The document that the passes give, in order. -/
theorem fst_normalize (settings : NormalizeSettings) (d : IntentDocument) :
    (d.normalize settings).1
      = (optionSentinels settings.filterSentinel).onDocument
        ((filterSentinels settings.filterSentinel).onDocument
          (d.respelled settings).withFilterKeys) := rfl

theorem meets_respelled (settings : NormalizeSettings) (d : IntentDocument) :
    (d.respelled settings).Meets (.lowered settings) :=
  ((d.meets_any.onDocument brings_canonicalIds).onDocument
    brings_migratedKinds).onDocument brings_loweredCopies

/-- A normalized document is tidy. -/
theorem meets_normalize (hs : settings.filterSentinel ≠ "")
    (d : IntentDocument) :
    (d.normalize settings).1.Meets (.tidy settings) :=
  ((d.meets_respelled settings).withFilterKeys.onDocument
    (brings_filterSentinels hs)).onDocument (brings_optionSentinels hs)

end IntentDocument

/-! ## What is tidy is spared -/

theorem map_canonicalId_eq {id? : Option String}
    (h : ∀ id, id? = some id → IsCanonical id) :
    id?.map canonicalId = id? := by
  cases id? with
  | none => rfl
  | some id => rw [Option.map_some, (h id rfl).canonicalId_eq]

theorem spares_canonicalIds : canonicalIds.Spares (.lowered settings) where
  action a h := by
    show { a with id := canonicalId a.id } = a
    rw [h.1.canonicalId_eq]
  component c h := by
    have hevents :
        c.events.map (fun e => { e with
          actionId := e.actionId.map canonicalId })
        = c.events := by
      refine map_eq_self fun e he => ?_
      rw [map_canonicalId_eq fun id hid =>
        h id (List.mem_filterMap.2 ⟨e, he, hid⟩)]
    show { c with events := c.events.map _ } = c
    rw [hevents]
  page p h := by
    have hevents :
        p.events.map (fun e => { e with actionId := canonicalId e.actionId })
        = p.events := by
      refine map_eq_self fun e he => ?_
      rw [(h e he).canonicalId_eq]
    show { p with events := p.events.map _ } = p
    rw [hevents]
  state _ _ := rfl

theorem spares_migratedKinds :
    (migratedKinds settings).Spares (.lowered settings) where
  action a h := by
    show a.withMigratedKind settings = a
    rw [Action.withMigratedKind, h.2.1]
  component _ _ := rfl
  page _ _ := rfl
  state _ _ := rfl

theorem spares_loweredCopies : loweredCopies.Spares (.lowered settings) where
  action a h := by
    show a.withCopyStep = a
    rw [Action.withCopyStep, h.2.2]
  component _ _ := rfl
  page _ _ := rfl
  state _ _ := rfl

theorem spares_filterSentinels :
    (filterSentinels settings.filterSentinel).Spares (.tidy settings) where
  action _ _ := rfl
  component _ _ := rfl
  page _ _ := rfl
  state _ h := h.withFilterSentinels_eq

theorem spares_optionSentinels :
    (optionSentinels settings.filterSentinel).Spares (.tidy settings) where
  action _ _ := rfl
  component _ h := h.2.1
  page _ _ := rfl
  state _ _ := rfl

namespace IntentDocument

variable {d : IntentDocument}

theorem Meets.lowered (h : d.Meets (.tidy settings)) :
    d.Meets (.lowered settings) where
  action := h.action
  component c hc := (h.component c hc).1
  page := h.page
  state _ _ := trivial

/-- Ids, kinds, and sources with targets that are in their normal form stay as
they are. -/
theorem Meets.respelled_eq (h : d.Meets (.lowered settings)) :
    d.respelled settings = d := by
  rw [respelled, h.onDocument_eq spares_canonicalIds,
    h.onDocument_eq spares_migratedKinds, h.onDocument_eq spares_loweredCopies]

/-- The actions of the mutation are among those of the document. -/
theorem mem_allActions {a : Action} (ha : a ∈ d.mutation.actions) :
    a ∈ d.allActions :=
  List.mem_append_left _ ha

theorem mem_allComponents {c : Component} (hc : c ∈ d.mutation.components) :
    c ∈ d.allComponents := List.mem_append_left _ hc

/-- For a tidy document the passes before renaming leave no record. -/
theorem Meets.actionRecords_eq_nil (h : d.Meets (.tidy settings)) :
    d.mutation.actions.filterMap Action.canonicalIdRecord? = []
      ∧ d.mutation.actions.filterMap (Action.migratedKindRecord? settings) = []
      ∧ d.mutation.actions.filterMap Action.copyStepRecord? = [] := by
  refine ⟨?_, ?_, ?_⟩ <;> rw [List.filterMap_eq_nil_iff] <;> intro a ha
  · rw [Action.canonicalIdRecord?,
      if_pos (h.action a (mem_allActions ha)).1.canonicalId_eq]
  · rw [Action.migratedKindRecord?, (h.action a (mem_allActions ha)).2.1]
    rfl
  · rw [Action.copyStepRecord?, (h.action a (mem_allActions ha)).2.2]
    rfl

/-- For a tidy document the passes after renaming leave no record. -/
theorem Meets.sentinelRecords_eq_nil (h : d.Meets (.tidy settings)) :
    filterSentinelRecords settings.filterSentinel d.mutation.stateAdded
        ++ filterSentinelRecords settings.filterSentinel
          d.mutation.stateUpdated = []
      ∧ d.mutation.components.filterMap
        (Component.optionSentinelRecord? settings.filterSentinel) = [] := by
  have hadded : IsFilledState d.mutation.stateAdded :=
    h.state _ List.mem_cons_self
  have hupdated : IsFilledState d.mutation.stateUpdated :=
    h.state _ (List.mem_cons_of_mem _ List.mem_cons_self)
  refine ⟨by rw [hadded.records_eq_nil, hupdated.records_eq_nil]; rfl, ?_⟩
  rw [List.filterMap_eq_nil_iff]
  intro c hc
  rw [Component.optionSentinelRecord?,
    if_pos (h.component c (mem_allComponents hc)).2.2]

/-- Normalization leaves a tidy document without keys to rename as it is, and
says nothing. -/
theorem Meets.normalize_eq (h : d.Meets (.tidy settings))
    (hnone : d.filterRenames = []) :
    d.normalize settings = (d, []) := by
  have hkeys : d.withFilterKeys = d := by
    rw [IntentDocument.withFilterKeys, hnone, List.foldl_nil]
  obtain ⟨hids, hkinds, hcopies⟩ := h.actionRecords_eq_nil
  obtain ⟨hstates, hoptions⟩ := h.sentinelRecords_eq_nil
  simp only [normalize, Pass.all, Pass.run, Pass.ofActions,
    h.lowered.onDocument_eq spares_canonicalIds,
    h.lowered.onDocument_eq spares_migratedKinds,
    h.lowered.onDocument_eq spares_loweredCopies, hkeys,
    h.onDocument_eq spares_filterSentinels,
    h.onDocument_eq spares_optionSentinels, hids, hkinds, hcopies, hnone,
    hstates, hoptions, List.map_nil, List.append_nil]

/-- A normalization of a tidy document that says nothing had no key to
rename. -/
theorem Meets.filterRenames_eq_nil (h : d.Meets (.tidy settings))
    (hlog : (d.normalize settings).2 = []) : d.filterRenames = [] := by
  simp only [normalize, Pass.all, Pass.run, Pass.ofActions,
    List.append_eq_nil_iff, h.lowered.onDocument_eq spares_canonicalIds,
    h.lowered.onDocument_eq spares_migratedKinds,
    h.lowered.onDocument_eq spares_loweredCopies, List.map_eq_nil_iff] at hlog
  exact hlog.2.2.2.1

end IntentDocument

end IntentGraph
