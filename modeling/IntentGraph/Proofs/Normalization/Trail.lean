import IntentGraph.Proofs.Document.RoundTrip
import IntentGraph.Proofs.Normalization.Tidy

/-!
# What normalization leaves a record of

A normalization that leaves no record should have changed nothing. Five of the
six passes hold to that (`Pass.Accounts`, and over a run of them
`Pass.mutation_run`). The pass over ids does not: it brings the references of
events into canonical spelling along with the ids of actions, and has records
for the ids alone.

So what is changed without a record are references, and nothing else
(`IntentDocument.mutation_normalize_of_silent`). A document whose actions are
spelled well, and whose page runs one of them under a loose spelling, is changed
in silence: `IntentDocument.changed_silently_looseReference`.

Options are looked for under one key and filled under every one, so this takes
that the maps they stand in hold a key once. All maps of a document that is read
do (`IntentDocument.yields_ascends`).
-/

namespace IntentGraph

variable {settings : NormalizeSettings} {sentinel : String}

/-! ## Passes that account for what they do -/

/-- A pass leaves a record wherever it changes a mutation of some sort. -/
def Pass.Accounts (P : Mutation → Prop) (pass : Pass) : Prop :=
  ∀ d, P d.mutation → pass.records d = [] → (pass.apply d).mutation = d.mutation

/-- So does a run of such passes. -/
theorem Pass.mutation_run {P : Mutation → Prop} {passes : List Pass}
    (h : ∀ pass ∈ passes, pass.Accounts P) {d : IntentDocument}
    (hd : P d.mutation) (hlog : (run passes d).2 = []) :
    (run passes d).1.mutation = d.mutation := by
  induction passes generalizing d with
  | nil => rfl
  | cons pass passes ih =>
    obtain ⟨hrecords, hrest⟩ := List.append_eq_nil_iff.1 hlog
    have hkept : (pass.apply d).mutation = d.mutation :=
      h pass List.mem_cons_self d hd hrecords
    have hrun :=
      ih (fun pass' hpass' => h pass' (List.mem_cons_of_mem _ hpass'))
        (hkept ▸ hd) hrest
    exact hrun.trans hkept

/-! ### Actions -/

/-- A pass over actions accounts for what it does if it leaves alone what it has
no record for. -/
theorem accounts_ofActions {P : Mutation → Prop} {f : Action → Action}
    {record? : Action → Option AuditRecord}
    (h : ∀ a, record? a = none → f a = a) :
    (Pass.ofActions { Revision.identity with
      action := f } record?).Accounts P := by
  intro d _ hrecords
  have hactions : ∀ a ∈ d.mutation.actions, f a = a :=
    fun a ha => h a (List.filterMap_eq_nil_iff.1 hrecords a ha)
  rw [Mutation.actions, List.forall_mem_append] at hactions
  simp only [Pass.ofActions, Revision.onDocument, Revision.onMutation,
    Revision.identity, map_eq_self hactions.1, map_eq_self hactions.2,
    List.map_id, id_eq]

theorem accounts_migratedKinds {P : Mutation → Prop} :
    (Pass.ofActions (migratedKinds settings)
      (Action.migratedKindRecord? settings)).Accounts P :=
  accounts_ofActions fun a ha => by
    rw [Action.migratedKindRecord?, Option.map_eq_none_iff] at ha
    rw [Action.withMigratedKind, ha]

theorem accounts_loweredCopies {P : Mutation → Prop} :
    (Pass.ofActions loweredCopies Action.copyStepRecord?).Accounts P :=
  accounts_ofActions fun a ha => by
    rw [Action.copyStepRecord?, Option.map_eq_none_iff] at ha
    rw [Action.withCopyStep, ha]

/-! ### Keys and filter state -/

theorem accounts_filterKeys {P : Mutation → Prop} :
    Pass.Accounts P ⟨IntentDocument.withFilterKeys,
      fun d => d.filterRenames.map KeyRename.record⟩ := by
  intro d _ hrecords
  have hnone : d.filterRenames = [] := List.map_eq_nil_iff.1 hrecords
  show d.withFilterKeys.mutation = d.mutation
  rw [IntentDocument.withFilterKeys, hnone, List.foldl_nil]

/-- State without a record is filled. -/
theorem isFilledState_of_records_eq_nil {state : Fields}
    (h : filterSentinelRecords sentinel state = []) : IsFilledState state := by
  rw [filterSentinelRecords, List.map_eq_nil_iff, List.filter_eq_nil_iff] at h
  exact fun entry hentry => by simpa using h entry hentry

theorem accounts_filterSentinels {P : Mutation → Prop} :
    Pass.Accounts P ⟨(filterSentinels sentinel).onDocument, fun d =>
      filterSentinelRecords sentinel d.mutation.stateAdded
        ++ filterSentinelRecords sentinel d.mutation.stateUpdated⟩ := by
  intro d _ hrecords
  obtain ⟨hadded, hupdated⟩ := List.append_eq_nil_iff.1 hrecords
  simp only [Revision.onDocument, Revision.onMutation, filterSentinels,
    Revision.identity,
    (isFilledState_of_records_eq_nil hadded).withFilterSentinels_eq,
    (isFilledState_of_records_eq_nil hupdated).withFilterSentinels_eq,
    List.map_id]

/-! ### Options -/

/-- The maps in which the options of a component stand ascend by key, as maps
do. -/
structure Component.Ascends (c : Component) : Prop where
  properties : Json.isSortedFields c.properties = true
  literal : ∀ value, c.dataSource = some (.literal value) →
    value.isSorted = true

/-- An option that does not lack its value is not filled. -/
theorem fillOption_eq_self {key : String} {option : Json}
    (hsorted : option.isSorted = true) (h : lacksValue key option = false) :
    fillOption sentinel key option = option := by
  have htext : ∀ {value : Json}, value ≠ .string "" →
      fillText sentinel value = value :=
    fun hne => if_neg hne
  cases option with
  | object fields =>
    refine congrArg Json.object (map_eq_self ?_)
    rintro ⟨name, value⟩ hentry
    by_cases hname : name = key
    · subst hname
      have hvalue : value ≠ .string "" := by
        simpa [lacksValue, Fields.get?_of_mem hsorted hentry] using h
      simp only [if_true, htext hvalue]
    · simp only [if_neg hname]
  | string s => exact htext (by simpa [lacksValue] using h)
  | null | bool _ | number _ | array _ => exact htext (by simp)

theorem map_fillOption_eq_self {key : String} {options : List Json}
    (hsorted : (Json.array options).isSorted = true)
    (h : ∀ option ∈ options, lacksValue key option = false) :
    options.map (fillOption sentinel key) = options :=
  map_eq_self fun option hoption =>
    fillOption_eq_self (Json.isSortedItems_iff.1 hsorted option hoption)
      (h option hoption)

namespace Component

variable {c : Component}

theorem fillProperty_eq_self (hc : c.Ascends) {key : String}
    (h : ∀ option ∈ c.propertyOptions, lacksValue key option = false) :
    c.properties.mapValues (fillProperty sentinel key) = c.properties := by
  refine map_eq_self ?_
  rintro ⟨name, value⟩ hentry
  by_cases hname : name = "options"
  · subst hname
    have hget : c.properties.get? "options" = some value :=
      Fields.get?_of_mem hc.properties hentry
    have hsorted : value.isSorted = true :=
      Json.isSorted_of_mem hc.properties _ hentry
    cases value with
    | array options =>
      have hoptions : c.propertyOptions = options := by
        rw [propertyOptions, hget]; rfl
      show (_, Json.array (options.map _)) = _
      rw [map_fillOption_eq_self hsorted (hoptions ▸ h)]
    | _ => rfl
  · exact congrArg (Prod.mk name) (fillProperty_of_ne hname value)

theorem fillSource_eq_self (hc : c.Ascends) {key : String}
    (h : ∀ option ∈ c.literalOptions, lacksValue key option = false) :
    fillSource sentinel key c.dataSource = c.dataSource := by
  unfold fillSource
  split
  · next options hsource =>
    have hoptions : c.literalOptions = options := by
      rw [literalOptions, hsource]
    rw [map_fillOption_eq_self (hc.literal _ hsource) (hoptions ▸ h), hsource]
  · rfl

/-- A component without options to count is not filled. -/
theorem withOptionSentinels_eq_self (hc : c.Ascends)
    (h : c.emptyOptionCount = 0) :
    c.withOptionSentinels sentinel = c := by
  by_cases hselect : c.kind.isSelectLike = true
  · rw [emptyOptionCount, if_pos hselect, List.countP_eq_zero,
      List.forall_mem_append] at h
    rw [withOptionSentinels_of_select hselect,
      fillProperty_eq_self hc fun option hoption => by
      simpa using h.1 option hoption,
        fillSource_eq_self hc fun option hoption => by
        simpa using h.2 option hoption]
  · rw [withOptionSentinels, if_neg hselect]

end Component

theorem accounts_optionSentinels :
    Pass.Accounts (fun m => ∀ c ∈ m.components, c.Ascends)
      ⟨(optionSentinels sentinel).onDocument, fun d =>
        d.mutation.components.filterMap
          (Component.optionSentinelRecord? sentinel)⟩ := by
  intro d hd hrecords
  have hcomponents :
      ∀ c ∈ d.mutation.components, c.withOptionSentinels sentinel = c := by
    intro c hc
    have hnone : c.optionSentinelRecord? sentinel = none :=
      List.filterMap_eq_nil_iff.1 hrecords c hc
    rw [Component.optionSentinelRecord?, ite_eq_left_iff] at hnone
    exact Component.withOptionSentinels_eq_self (hd c hc) (by simpa using hnone)
  rw [Mutation.components, List.forall_mem_append] at hcomponents
  simp only [Revision.onDocument, Revision.onMutation, optionSentinels,
    Revision.identity, map_eq_self hcomponents.1, map_eq_self hcomponents.2,
    List.map_id, id_eq]

/-! ## References -/

namespace Mutation

/-- The ids of actions that events refer to. -/
def eventRefs (m : Mutation) : List String :=
  m.components.flatMap (·.actionRefs) ++ m.pages.flatMap fun p =>
    p.events.map (·.actionId)

/-- The mutation with the references of events in canonical spelling, and all
else as it is. -/
def withCanonicalRefs (m : Mutation) : Mutation :=
  { m with
    pagesAdded := m.pagesAdded.map canonicalIds.page
    componentsAdded := m.componentsAdded.map canonicalIds.component
    pagesUpdated := m.pagesUpdated.map canonicalIds.page
    componentsUpdated := m.componentsUpdated.map canonicalIds.component }

theorem components_withCanonicalRefs (m : Mutation) :
    m.withCanonicalRefs.components
      = m.components.map canonicalIds.component := by
  simp [components, withCanonicalRefs]

theorem pages_withCanonicalRefs (m : Mutation) :
    m.withCanonicalRefs.pages = m.pages.map canonicalIds.page := by
  simp [pages, withCanonicalRefs]

theorem mem_eventRefs {m : Mutation} {id : String} :
    id ∈ m.eventRefs ↔ (∃ c ∈ m.components, id ∈ c.actionRefs)
      ∨ ∃ p ∈ m.pages, ∃ e ∈ p.events, e.actionId = id := by
  simp [eventRefs]

/-- References stay as they are iff they are canonical. -/
theorem withCanonicalRefs_eq_self_iff {m : Mutation} :
    m.withCanonicalRefs = m ↔ ∀ id ∈ m.eventRefs, IsCanonical id := by
  constructor
  · -- where nothing changes, every part is what the pass has made of some part
    intro h id hid
    rw [← h, mem_eventRefs, components_withCanonicalRefs,
      pages_withCanonicalRefs] at hid
    rcases hid with ⟨c, hc, hid⟩ | ⟨p, hp, e, he, rfl⟩
    · obtain ⟨c, _, rfl⟩ := List.mem_map.1 hc
      exact brings_canonicalIds.component c trivial id hid
    · obtain ⟨p, _, rfl⟩ := List.mem_map.1 hp
      exact brings_canonicalIds.page p trivial e he
  · intro h
    have hspares : canonicalIds.Spares (.lowered .default) :=
      spares_canonicalIds
    have hcomponents :
        ∀ c ∈ m.components, canonicalIds.component c = c := fun c hc =>
          hspares.component c fun id hid =>
            h id (mem_eventRefs.2 (.inl ⟨c, hc, hid⟩))
    have hpages : ∀ p ∈ m.pages, canonicalIds.page p = p := fun p hp =>
      hspares.page p fun e he =>
        h e.actionId (mem_eventRefs.2 (.inr ⟨p, hp, e, he, rfl⟩))
    rw [components, List.forall_mem_append] at hcomponents
    rw [pages, List.forall_mem_append] at hpages
    rw [withCanonicalRefs, map_eq_self hpages.1, map_eq_self hcomponents.1,
      map_eq_self hpages.2, map_eq_self hcomponents.2]

end Mutation

/-! ## Normalization -/

namespace IntentDocument

/-- Without a record the pass over ids has changed references alone, and all ids
were canonical. -/
theorem mutation_canonicalIds {d : IntentDocument}
    (h : d.mutation.actions.filterMap Action.canonicalIdRecord? = []) :
    (canonicalIds.onDocument d).mutation = d.mutation.withCanonicalRefs
      ∧ ∀ a ∈ d.mutation.actions, IsCanonical a.id := by
  have hids : ∀ a ∈ d.mutation.actions, canonicalId a.id = a.id := by
    intro a ha
    have hnone : a.canonicalIdRecord? = none :=
      List.filterMap_eq_nil_iff.1 h a ha
    rw [Action.canonicalIdRecord?, ite_eq_left_iff] at hnone
    simpa using hnone
  have hactions : ∀ a ∈ d.mutation.actions, a.withCanonicalId = a :=
    fun a ha => by
    rw [Action.withCanonicalId, hids a ha]
  constructor
  · rw [Mutation.actions, List.forall_mem_append] at hactions
    show canonicalIds.onMutation d.mutation = _
    simp only [Revision.onMutation, canonicalIds, Mutation.withCanonicalRefs,
      map_eq_self hactions.1, map_eq_self hactions.2, id_eq]
  · exact fun a ha => hids a ha ▸ isCanonical_canonicalId a.id

/-- A normalization without a record brings the references of events into
canonical spelling, and changes nothing else of the mutation. So it changes
nothing at all iff they were canonical, and a reference that it changes was the
id of no action of the mutation. -/
theorem mutation_normalize_of_silent (settings : NormalizeSettings)
    (d : IntentDocument) (hmaps : ∀ c ∈ d.mutation.components, c.Ascends)
    (hlog : (d.normalize settings).2 = []) :
    (d.normalize settings).1.mutation = d.mutation.withCanonicalRefs
      ∧ ((d.normalize settings).1.mutation = d.mutation
        ↔ ∀ id ∈ d.mutation.eventRefs, IsCanonical id)
      ∧ ∀ id ∈ d.mutation.eventRefs, canonicalId id ≠ id →
        id ∉ d.mutation.actions.map (·.id) := by
  obtain ⟨hids, hrest⟩ := List.append_eq_nil_iff.1 hlog
  obtain ⟨hrefs, hcanonical⟩ := mutation_canonicalIds hids
  have hascends :
      ∀ c ∈ (canonicalIds.onDocument d).mutation.components, c.Ascends := by
    rw [hrefs, Mutation.components_withCanonicalRefs]
    exact List.forall_mem_map.2 fun c hc =>
      ⟨(hmaps c hc).properties, (hmaps c hc).literal⟩
  have hpasses : ∀ pass ∈ (Pass.all settings).tail,
      pass.Accounts fun m => ∀ c ∈ m.components, c.Ascends := by
    simp only [Pass.all, List.tail_cons, List.forall_mem_cons]
    exact ⟨accounts_migratedKinds, accounts_loweredCopies, accounts_filterKeys,
      accounts_filterSentinels, accounts_optionSentinels, List.forall_mem_nil _⟩
  have hmutation :
      (d.normalize settings).1.mutation = d.mutation.withCanonicalRefs :=
    (Pass.mutation_run hpasses hascends hrest).trans hrefs
  refine ⟨hmutation, ?_, fun id _ hloose hid => hloose ?_⟩
  · rw [hmutation, Mutation.withCanonicalRefs_eq_self_iff]
  · obtain ⟨a, ha, rfl⟩ := List.mem_map.1 hid
    exact (hcanonical a ha).canonicalId_eq

/-- A page that loads orders, and a button that does so again, both under a
loose spelling. -/
def looseReference : IntentDocument where
  intentType := .create
  mutation := { Mutation.empty with
    componentsAdded := [
      ⟨"again", .button, [], none,
        [⟨"click", some "Load-Orders", none, []⟩], [], none⟩]
    pagesAdded :=
      [⟨"home", none, none, ["again"], [⟨Lifecycle.pageLoad, "Load Orders"⟩]⟩]
    actionsAdded := [Action.bare "load_orders" .workflow] }
  prior := none
  executionGraph := none

/-- Both references are changed, and nothing tells of it. -/
theorem mutation_normalize_looseReference :
    looseReference.mutation.eventRefs = ["Load-Orders", "Load Orders"]
      ∧ (looseReference.normalize .default).1.mutation.eventRefs
        = ["load_orders", "load_orders"]
      ∧ (looseReference.normalize .default).1.mutation
        = looseReference.mutation.withCanonicalRefs := by
  have hmaps : ∀ c ∈ looseReference.mutation.components, c.Ascends :=
    List.forall_mem_singleton.2 ⟨rfl, nofun⟩
  have hlog : (looseReference.normalize .default).2 = [] := by decide +kernel
  exact ⟨by decide +kernel, by decide +kernel,
    (mutation_normalize_of_silent .default looseReference hmaps hlog).1⟩

/-- That no record is left does not mean that nothing was changed. -/
theorem changed_silently_looseReference :
    (looseReference.normalize .default).2 = []
      ∧ (looseReference.normalize .default).1.mutation
        ≠ looseReference.mutation := by
  decide +kernel

end IntentDocument

/-! ## Documents that are read -/

/-- What stands in the document as the data of a component is read as it stands
there. -/
theorem DataSource.yields_literal :
    Yields decode fun source => ∀ value, source = .literal value →
      value.isSorted = true := by
  have hknown :
      ∀ alternative ∈ alternatives, Yields alternative.decode fun source =>
      ∀ value, source = .literal value → value.isSorted = true := by
    refine List.forall_mem_cons.2 ⟨?_,
      List.forall_mem_cons.2 ⟨?_, List.forall_mem_singleton.2 ?_⟩⟩
    · refine yields_record (fun value heq => by cases heq; rfl)
        (List.forall_mem_singleton.2 ?_)
      refine .of_sets rfl yields_json fun _ _ hvalue _ value heq => ?_
      cases heq
      exact hvalue
    · refine yields_record nofun (List.forall_mem_singleton.2 ?_)
      exact .of_sets rfl (yields_true _) fun _ _ _ _ => nofun
    · exact yields_map ((yields_true _).imp fun _ _ => nofun)
  intro v hv source hsource
  rcases cases_of_decodeTagged hknown hv hsource with h | rfl
  · exact h
  · exact nofun

theorem Component.yields_ascends : Yields decode Ascends := by
  have hblank :
      Ascends ⟨"", .unknown "", [], none, [], [], none⟩ := ⟨rfl, nofun⟩
  have hsource : Yields (decodeOption DataSource.decode) _ :=
    yields_option fun v hv _ => DataSource.yields_literal v hv
  refine yields_record hblank ?_
  simp only [fields, List.forall_mem_cons, List.not_mem_nil, false_imp_iff,
    implies_true, and_true]
  refine ⟨?_, ?_, .of_sets rfl yields_fields fun _ _ properties h =>
    { h with properties },
    .of_sets rfl hsource fun _ _ hsource h =>
      { h with literal := fun value heq => hsource _ heq value rfl },
    ?_, ?_, ?_⟩
  all_goals exact .of_sets rfl (yields_true _) fun _ _ _ h => { h with }

theorem Mutation.yields_ascends :
    Yields decode fun m => ∀ c ∈ m.components, c.Ascends := by
  have hcomponents := yields_list Component.yields_ascends
  have hparts : Yields decode fun m =>
      (∀ c ∈ m.componentsAdded, c.Ascends)
        ∧ ∀ c ∈ m.componentsUpdated, c.Ascends := by
    refine yields_record ⟨List.forall_mem_nil _, List.forall_mem_nil _⟩ ?_
    simp only [fields, List.forall_mem_cons, List.not_mem_nil,
      false_imp_iff, implies_true, and_true]
    refine ⟨?_, .of_sets rfl hcomponents fun _ _ hadded h => ⟨hadded, h.2⟩,
      ?_, ?_, ?_,
      .of_sets rfl hcomponents fun _ _ hupdated h => ⟨h.1, hupdated⟩,
      ?_, ?_, ?_⟩
    -- the other fields hold no components
    all_goals exact .of_sets rfl (yields_true _) fun _ _ _ h => h
  exact hparts.imp fun m h => List.forall_mem_append.2 h

/-- In every document that is read the maps ascend by key. -/
theorem IntentDocument.yields_ascends :
    Yields decode fun d => ∀ c ∈ d.mutation.components, c.Ascends := by
  refine yields_record (List.forall_mem_nil _) ?_
  simp only [fields, List.forall_mem_cons, List.not_mem_nil, false_imp_iff,
    implies_true, and_true]
  refine ⟨?_, .of_sets rfl Mutation.yields_ascends fun _ _ h _ => h, ?_, ?_⟩
  all_goals exact .of_sets rfl (yields_true _) fun _ _ _ h => h

end IntentGraph
