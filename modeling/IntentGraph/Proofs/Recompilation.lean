import IntentGraph.Proofs.Compilation
import IntentGraph.Proofs.Normalization.Tidy
import IntentGraph.Proofs.Repair.Spelling

/-!
# Compiling what was compiled

Repair runs after normalization, and its own actions are never normalized. So
what is compiled is up to everything that normalization asks of a document
(`IntentDocument.meets_of_compile`) and needs no repair
(`IntentDocument.repairIfEnabled_of_compile`), except that a key may be spelled
ad hoc that came in with repair or is spelled nowhere
(`IntentDocument.spelling_of_compile`). A second compilation finds no other
thing to do: it changes nothing iff there is no such key
(`IntentDocument.recompiled_iff`). That there may be one is
`IntentDocument.recompiles_otherwise_filterCall`.
-/

namespace IntentGraph

variable {settings : NormalizeSettings} {config : Configuration}

/-! ## Repair keeps a document tidy -/

namespace Component

variable {c : Component} {sentinel : String}

theorem withOptionSentinels_dropEvents (ids : List String) :
    (c.dropEvents ids).withOptionSentinels sentinel
      = (c.withOptionSentinels sentinel).dropEvents ids := by
  unfold withOptionSentinels
  show (if c.kind.isSelectLike = true then _ else _) = _
  by_cases hselect : c.kind.isSelectLike = true
  · rw [if_pos hselect, if_pos hselect]
    rfl
  · rw [if_neg hselect, if_neg hselect]

/-- Options do not depend on events. -/
theorem IsFilled.dropEvents (h : c.IsFilled sentinel) (ids : List String) :
    (c.dropEvents ids).IsFilled sentinel :=
  ⟨by rw [withOptionSentinels_dropEvents, h.1], h.2⟩

end Component

/-- Repair keeps actions tidy, and what it makes is tidy. -/
theorem View.Origin.tidy {v : View} {reach : Reachability} {a : Action}
    (h : v.Origin reach config a)
    (htidy : ∀ b ∈ v.mutation.actions, (Standard.tidy settings).action b) :
    (Standard.tidy settings).action a := by
  cases h with
  | kept hb hwaits =>
    have hkept := htidy _ hb
    obtain ⟨triggers, rfl, _⟩ := hwaits
    exact hkept
  | normalizer hmade =>
    obtain ⟨heq, hid⟩ := hmade
    exact ⟨hid, by rw [heq]; rfl, by rw [heq]; rfl⟩
  | mirror hmade =>
    obtain ⟨heq, hid⟩ := hmade
    exact ⟨hid, by rw [heq]; rfl, by rw [heq]; rfl⟩

namespace IntentDocument

variable {d : IntentDocument} {c : Compilation}

/-! ## The parts of a mended document -/

theorem mended_eq (henabled : config.repair.enabled = true)
    (d : IntentDocument) :
    d.mended config = { d with
      mutation := ((View.ofDocument d).repaired
        (View.ofDocument d).reachability config).mutation } := by
  rw [mended, repairIfEnabled, if_pos henabled]
  rfl

theorem mended_eq_self (hdisabled : config.repair.enabled ≠ true)
    (d : IntentDocument) :
    d.mended config = d := by
  rw [mended, repairIfEnabled, if_neg hdisabled]

theorem allStates_mended (config : Configuration) (d : IntentDocument) :
    (d.mended config).allStates = d.allStates := by
  by_cases henabled : config.repair.enabled = true
  · have hstate :=
      (View.ofDocument d).sameState_repaired
        (View.ofDocument d).reachability config
    rw [mended_eq henabled]
    simp only [allStates, hstate.added, hstate.updated]
    rfl
  · rw [mended_eq_self henabled]

/-- An action of a mended document was there, or has its origin in a repair. -/
theorem mem_allActions_mended {a : Action}
    (ha : a ∈ (d.mended config).allActions) :
    a ∈ d.allActions ∨ config.repair.enabled = true
      ∧ (View.ofDocument d).Origin (View.ofDocument d).reachability
        config a := by
  by_cases henabled : config.repair.enabled = true
  · rw [mended_eq henabled] at ha
    rcases List.mem_append.1 ha with ha | ha
    · exact .inr ⟨henabled, View.origin_of_mem ha⟩
    · exact .inl (List.mem_append_right _ ha)
  · rw [mended_eq_self henabled] at ha
    exact .inl ha

/-- A component of a mended document was there, apart from events that are
dropped. -/
theorem exists_of_mem_allComponents_mended {b : Component}
    (hb : b ∈ (d.mended config).allComponents) :
    b ∈ d.allComponents ∨ ∃ b' ∈ d.allComponents, ∃ ids,
      b = b'.dropEvents ids := by
  by_cases henabled : config.repair.enabled = true
  · rw [mended_eq henabled] at hb
    rcases List.mem_append.1 hb with hb | hb
    · rw [View.components_repaired] at hb
      obtain ⟨b', hb', rfl⟩ := List.mem_map.1 hb
      exact .inr ⟨b', List.mem_append_left _ hb', _, rfl⟩
    · exact .inl (List.mem_append_right _ hb)
  · rw [mended_eq_self henabled] at hb
    exact .inl hb

/-- An event of a page of a mended document was there, or runs an action of the
mutation. -/
theorem exists_of_mem_allPages_mended {p : Page} {e : PageEvent}
    (hp : p ∈ (d.mended config).allPages) (he : e ∈ p.events) :
    (∃ q ∈ d.allPages, e ∈ q.events)
      ∨ ∃ a ∈ d.allActions, e.actionId = a.id := by
  by_cases henabled : config.repair.enabled = true
  · rw [mended_eq henabled] at hp
    rcases List.mem_append.1 hp with hp | hp
    · rcases View.exists_of_mem_repaired_pages hp he
        with ⟨q, hq | hq, he⟩ | ⟨a, ha, heq⟩
      · exact .inl ⟨q, List.mem_append_left _ hq, he⟩
      · exact .inl ⟨q, List.mem_append_right _ hq, he⟩
      · exact .inr ⟨a, List.mem_append_left _ ha, heq⟩
    · exact .inl ⟨p, List.mem_append_right _ hp, he⟩
  · rw [mended_eq_self henabled] at hp
    exact .inl ⟨p, hp, he⟩

/-- Repair keeps a document tidy. -/
theorem Meets.mended (h : d.Meets (.tidy settings)) :
    (d.mended config).Meets (.tidy settings) where
  action a ha := by
    rcases mem_allActions_mended ha with ha | ⟨_, horigin⟩
    · exact h.action a ha
    · exact horigin.tidy fun b hb => h.action b (List.mem_append_left _ hb)
  component b hb := by
    rcases exists_of_mem_allComponents_mended hb with hb | ⟨b', hb', ids, rfl⟩
    · exact h.component b hb
    · obtain ⟨hrefs, hfilled⟩ := h.component b' hb'
      exact ⟨fun id hid =>
        hrefs id (Component.mem_actionRefs_dropEvents.1 hid).1,
          hfilled.dropEvents ids⟩
  page p hp e he := by
    rcases exists_of_mem_allPages_mended hp he with ⟨q, hq, he⟩ | ⟨a, ha, heq⟩
    · exact h.page q hq e he
    · exact heq ▸ (h.action a ha).1
  state fields hfields := h.state fields (allStates_mended config d ▸ hfields)

/-! ## The keys of a compiled document -/

/-- How the keys of a document are spelled once it is mended: ad hoc only where
the sentinel is, in companions of assigned keys, and in the writes of
normalizers. -/
structure Spelling (sentinel : String) (d : IntentDocument) : Prop where
  state : ∀ fields ∈ d.allStates, ∀ key ∈ Fields.keys fields,
    Key.filterAlias? key = none
  component : ∀ b ∈ d.allComponents,
    (∀ key ∈ b.readKeys, SpelledWith sentinel key)
    ∧ ∀ key ∈ b.stateUpdates, Key.filterAlias? key = none
  read : ∀ a ∈ d.allActions, ∀ key ∈ a.readKeys,
    Key.filterAlias? key = none ∨ ∃ b ∈ d.allActions, key ∈ b.companionKeys
  written : ∀ a ∈ d.allActions, ∀ key ∈ a.mutatedKeys, a.MayWrite sentinel key

/-- Mending a document without ad-hoc spellings brings in no others than
these. -/
theorem Meets.spelling_mended {sentinel : String}
    (h : d.Meets (.spelledRight sentinel)) :
    (d.mended config).Spelling sentinel := by
  have hspelled : ∀ b ∈ (View.ofDocument d).mutation.actions,
      (Standard.spelledRight sentinel).action b :=
    fun b hb => h.action b (List.mem_append_left _ hb)
  -- repair only takes events from components, and actions it makes from what
  -- was there
  have hcomponent : ∀ b ∈ (d.mended config).allComponents,
      (Standard.spelledRight sentinel).component b := by
    intro b hb
    rcases exists_of_mem_allComponents_mended hb with hb | ⟨b', hb', ids, rfl⟩
    · exact h.component b hb
    · exact spelledRight_dropEvents (h.component b' hb') ids
  refine ⟨fun fields hfields =>
      h.state fields (allStates_mended config d ▸ hfields), hcomponent,
    fun a ha key hkey => ?_, fun a ha key hkey => ?_⟩
  · rcases mem_allActions_mended ha with ha | ⟨henabled, horigin⟩
    · exact .inl ((h.action a ha).2 key hkey)
    · refine (horigin.read hspelled hkey).imp_right ?_
      rintro ⟨b, hb, hcompanion⟩
      rw [mended_eq henabled]
      exact ⟨b, List.mem_append_left _ hb, hcompanion⟩
  · rcases mem_allActions_mended ha with ha | ⟨henabled, horigin⟩
    · exact mayWrite_of_spelledRight (h.action a ha) hkey
    · refine horigin.written hspelled (fun read hread => ?_) hkey
      obtain ⟨b, hb, hread⟩ := List.mem_flatMap.1 (KeySet.mem_ofList.1 hread)
      rw [mended_eq henabled] at hcomponent
      exact (hcomponent b (mem_of_mem_distinctBy hb)).1 read hread

/-- How the keys of a compiled document are spelled. -/
theorem spelling_of_compile (h : d.compile config = .ok c) :
    c.document.Spelling config.normalize.filterSentinel := by
  obtain ⟨_, built, _, hdocument⟩ := of_compile h
  rw [hdocument]
  have hspelling :
      ((d.normalForm config).mended config).Spelling
        config.normalize.filterSentinel :=
    (meets_spelledRight_normalize config.normalize d).spelling_mended
  exact ⟨hspelling.state, hspelling.component, hspelling.read,
    hspelling.written⟩

/-! ## The second compilation -/

/-- The log of a compilation is that of normalization, and after it that of
repair. -/
theorem repairLog_of_compile (h : d.compile config = .ok c) :
    c.repairLog = (d.normalize config.normalize).2
      ++ ((d.normalForm config).repairIfEnabled config).2 := by
  unfold compile at h
  obtain ⟨_, _, h⟩ := exists_of_bind_eq_ok h
  obtain ⟨_, _, h⟩ := exists_of_bind_eq_ok h
  obtain ⟨_, _, h⟩ := exists_of_bind_eq_ok h
  obtain ⟨_, _, h⟩ := exists_of_bind_eq_ok h
  cases h
  rfl

/-- The sentinel of sound settings is no empty text. -/
theorem sentinel_ne_of_isSound (hsound : config.isSound = true) :
    config.normalize.filterSentinel ≠ "" := by
  intro hempty
  have hissue : ConfigIssue.blankSentinel ∈ config.issues := by
    have hblank : Text.isBlankText config.normalize.filterSentinel = true := by
      rw [hempty]; rfl
    simp [Configuration.issues, hblank]
  have herror := List.all_eq_true.1 hsound _ hissue
  simp [ConfigIssue.level] at herror

/-- What is compiled is tidy. -/
theorem meets_of_compile (hsound : config.isSound = true)
    (h : d.compile config = .ok c) :
    c.document.Meets (.tidy config.normalize) := by
  obtain ⟨_, built, _, hdocument⟩ := of_compile h
  rw [hdocument]
  have htidy :
      ((d.normalForm config).mended config).Meets (.tidy config.normalize) :=
    (meets_normalize (sentinel_ne_of_isSound hsound) d).mended
  exact ⟨htidy.action, htidy.component, htidy.page, htidy.state⟩

/-- What was repaired is not repaired again. -/
theorem repairIfEnabled_of_compile (h : d.compile config = .ok c) :
    c.document.repairIfEnabled config = (c.document, []) := by
  by_cases henabled : config.repair.enabled = true
  · obtain ⟨_, built, _, hdocument⟩ := of_compile h
    have hview : View.ofDocument c.document
        = (View.ofDocument (d.normalForm config)).repaired
          (View.ofDocument (d.normalForm config)).reachability config := by
      rw [hdocument, ← view_mended henabled]
      rfl
    have hclosed : (View.ofDocument c.document).Closed := by
      rw [hview]
      exact View.closed_repair _ config
    obtain ⟨hnormalizers, hmirrors⟩ :=
      View.planned_repaired (View.ofDocument (d.normalForm config))
        (View.ofDocument (d.normalForm config)).reachability config
    rw [← hview] at hnormalizers hmirrors
    rw [repairIfEnabled, if_pos henabled, repair, reachability,
      hclosed.repair_eq hnormalizers hmirrors]
    rfl
  · rw [repairIfEnabled, if_neg henabled]

/-- What mentions no ad-hoc filter key is compiled again to what it is. -/
theorem compile_of_compile (hsound : config.isSound = true)
    (h : d.compile config = .ok c) (hnone : c.document.filterRenames = []) :
    ∃ c', c.document.compile config = .ok c' ∧ c'.document = c.document
      ∧ c'.repairLog = [] := by
  obtain ⟨passes, built, hbuilt, hdocument⟩ := of_compile h
  have hview : View.ofDocument c.document
      = View.ofDocument ((d.normalForm config).mended config) := by
    rw [hdocument]
    rfl
  have hnormal := (meets_of_compile hsound h).normalize_eq hnone
  -- neither normalization nor repair does anything the second time
  have hrepair := repairIfEnabled_of_compile h
  have hform : c.document.normalForm config = c.document := by
    rw [normalForm, hnormal]
  have hmended : (c.document.normalForm config).mended config = c.document := by
    rw [hform, mended, hrepair]
  -- the rules look at the view alone, and it is the one that passed
  have passes' : c.document.Passes config := by
    refine ⟨?_, ?_, ?_⟩
    · rw [hform, validate, hview]
      exact View.fatal?_structural.2 (View.fatal?_full.1 passes.full).1
    · rw [hmended, validate, hview]
      exact passes.full
    · rw [hmended, reachability, hview]
      exact passes.closed
  obtain ⟨c', hc'⟩ := exists_compile passes'
  refine ⟨c', hc', ?_, ?_⟩
  · obtain ⟨_, built', hbuilt', hdocument'⟩ := of_compile hc'
    rw [hmended, hview, hbuilt] at hbuilt'
    cases hbuilt'
    rw [hdocument', hmended, hdocument]
  · rw [repairLog_of_compile hc', hnormal, hform, hrepair]
    rfl

/-- A second compilation that says nothing found no key to rename. -/
theorem filterRenames_of_compile {c' : Compilation}
    (hsound : config.isSound = true) (h : d.compile config = .ok c)
    (h' : c.document.compile config = .ok c') (hlog : c'.repairLog = []) :
    c.document.filterRenames = [] := by
  rw [repairLog_of_compile h', List.append_eq_nil_iff] at hlog
  exact (meets_of_compile hsound h).filterRenames_eq_nil hlog.1

/-! ## When recompilation changes nothing -/

/-- Of the keys that a document mentions, only what is written and what
components read has to be looked at. -/
theorem Spelling.mentionedKeys_iff {sentinel : String}
    (h : d.Spelling sentinel) :
    (∀ key ∈ d.mentionedKeys, Key.filterAlias? key = none) ↔
      (∀ a ∈ d.allActions, ∀ key ∈ a.mutatedKeys, Key.filterAlias? key = none)
        ∧ ∀ b ∈ d.allComponents, ∀ key ∈ b.readKeys,
          Key.filterAlias? key = none := by
  constructor
  · intro hnone
    refine ⟨fun a ha key hkey => hnone key ?_,
      fun b hb key hkey => hnone key ?_⟩
    · exact mem_mentionedKeys.2
        (.inr (.inr ⟨a, ha, List.mem_append_left _ hkey⟩))
    · exact mem_mentionedKeys.2
        (.inr (.inl ⟨b, hb, List.mem_append_left _ hkey⟩))
  · rintro ⟨hactions, hcomponents⟩ key hkey
    rcases mem_mentionedKeys.1 hkey
      with ⟨fields, hfields, hkey⟩ | ⟨b, hb, hkey⟩ | ⟨a, ha, hkey⟩
    · -- state keys and the keys that refer to others are spelled right anyway
      exact h.state fields hfields key hkey
    · rcases List.mem_append.1 hkey with hkey | hkey
      · exact hcomponents b hb key hkey
      · exact (h.component b hb).2 key hkey
    · rcases List.mem_append.1 hkey with hkey | hkey
      · exact hactions a ha key hkey
      · rcases h.read a ha key hkey with hnone | ⟨b, hb, hcompanion⟩
        · exact hnone
        · exact hactions b hb key
            (Action.mem_mutatedKeys_iff.2 (.inr hcompanion))

/-- What was compiled is compiled again to what it is, with nothing to say, iff
no action of it writes an ad-hoc filter key and no component reads one.
Components read one only through the sentinel, and `Action.MayWrite` says where
one is written. -/
theorem recompiled_iff (config : Configuration) (d : IntentDocument)
    (c : Compilation) (hsound : config.isSound = true)
    (h : d.compile config = .ok c) :
    ((∃ c', c.document.compile config = .ok c' ∧ c'.document = c.document
      ∧ c'.repairLog = [])
      ↔ (∀ a ∈ c.document.allActions, ∀ key ∈ a.mutatedKeys,
        Key.filterAlias? key = none)
        ∧ ∀ b ∈ c.document.allComponents, ∀ key ∈ b.readKeys,
          Key.filterAlias? key = none)
    ∧ (∀ b ∈ c.document.allComponents, ∀ key ∈ b.readKeys,
        SpelledWith config.normalize.filterSentinel key)
    ∧ ∀ a ∈ c.document.allActions, ∀ key ∈ a.mutatedKeys,
        a.MayWrite config.normalize.filterSentinel key := by
  have hspelling := spelling_of_compile h
  refine ⟨?_, fun b hb => (hspelling.component b hb).1, hspelling.written⟩
  rw [← hspelling.mentionedKeys_iff, ← filterRenames_eq_nil_iff]
  constructor
  · rintro ⟨c', h', _, hlog⟩
    exact filterRenames_of_compile hsound h h' hlog
  · exact compile_of_compile hsound h

/-- A call to an integration for a filter, the result of which nobody reads. -/
def filterCall (assigned : String) : IntentDocument where
  intentType := .create
  mutation := { Mutation.empty with
    actionsAdded := [
      { Action.bare "load_status" .integrationCall with
        config := [(ConfigKey.assignTo, .string assigned)]
        triggeredBy := [.lifecycle Lifecycle.appStart] }] }
  prior := none
  executionGraph := none

/-- The compiled table of rows stays as it is. -/
theorem recompiled_rowsDocument :
    Configuration.default.isSound = true
      ∧ ∃ c, rowsDocument.compile .default = .ok c
        ∧ ∃ c', c.document.compile .default = .ok c' ∧ c'.document = c.document
          ∧ c'.repairLog = [] := by
  have hsound : Configuration.default.isSound = true := by decide +kernel
  have passes : rowsDocument.Passes .default :=
    ⟨by decide +kernel, by decide +kernel, by decide +kernel⟩
  obtain ⟨c, hc⟩ := exists_compile passes
  obtain ⟨_, _, _, hdocument⟩ := of_compile hc
  have hmended :
      (∀ a ∈ ((rowsDocument.normalForm .default).mended .default).allActions,
        ∀ key ∈ a.mutatedKeys, Key.filterAlias? key = none)
      ∧ ∀ b ∈
          ((rowsDocument.normalForm .default).mended .default).allComponents,
        ∀ key ∈ b.readKeys, Key.filterAlias? key = none := by
    decide +kernel
  refine ⟨hsound, c, hc,
    (recompiled_iff .default rowsDocument c hsound hc).1.2 ?_⟩
  rw [hdocument]
  exact hmended

/-- A normalizer writes a key of its own making, which the second compilation
renames. -/
theorem recompiles_otherwise_filterCall :
    ¬ ∀ (config : Configuration) (d : IntentDocument) (c : Compilation),
      config.isSound = true →
      d.compile config = .ok c → ∃ c', c.document.compile config = .ok c'
        ∧ c'.document = c.document ∧ c'.repairLog = [] := by
  intro hclaim
  have passes : (filterCall "statusFilterRaw").Passes .default :=
    ⟨by decide +kernel, by decide +kernel, by decide +kernel⟩
  obtain ⟨c, hc⟩ := exists_compile passes
  obtain ⟨c', hc', _, hlog⟩ := hclaim .default _ c (by decide +kernel) hc
  have hnone := filterRenames_of_compile (by decide +kernel) hc hc' hlog
  obtain ⟨_, _, _, hdocument⟩ := of_compile hc
  rw [hdocument] at hnone
  have hrename : (((filterCall "statusFilterRaw").normalForm .default).mended
      .default).filterRenames = [⟨"statusFilter", "filters.status"⟩] := by
      decide +kernel
  exact absurd (hrename.symm.trans hnone) (by decide)

end IntentDocument

end IntentGraph
