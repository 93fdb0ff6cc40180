import IntentGraph.Proofs.Normalization.Tidy
import IntentGraph.Proofs.Validation

/-!
# Options are healed

A select may have an option whose value is the empty text. Normalization puts
the sentinel there, in the property and in a literal data source alike, and
validation asks of whichever of the two counts that no such option is left. Both
mean the same by an option without a value (`View.isEmptyOption_eq_lacksValue`),
and no pass adds an option or takes one away
(`IntentDocument.optionShape_normalize`): `IntentDocument.options_normalize`.
-/

namespace IntentGraph

/-- Validation and normalization mean the same by an option without a value. -/
theorem View.isEmptyOption_eq_lacksValue (valueKey : String) (option : Json) :
    View.isEmptyOption valueKey option = lacksValue valueKey option := by
  cases option <;> simp [View.isEmptyOption, lacksValue]

/-- Where every option of the selects has a value, no report says otherwise. -/
theorem View.rule_ne_of_optionViolations_eq_nil {v : View}
    {config : Configuration} {mode : ValidationMode} {f : Finding}
    (hnone : v.optionViolations = []) (hf : f ∈ v.validate config mode) :
    f.rule ≠ "static_options_not_empty" := by
  have hrule : Rule.fatal "static_options_not_empty" View.optionViolations
      ∈ Rule.table := by
    simp [Rule.table]
  exact rule_ne_of_mem_validate hf hrule hnone

/-! ## Options of a component -/

/-- The options in a data source. -/
def DataSource.options? : DataSource → Option (List Json)
  | .literal value => value.asArray?
  | _ => none

namespace Component

variable {c : Component} {sentinel : String}

/-- The options of the property count, or else those of the data source. -/
theorem staticOptions?_eq_or (c : Component) :
    c.staticOptions?
      = ((c.properties.get? "options").bind Json.asArray?).or
        (c.dataSource.bind DataSource.options?) := by
  unfold staticOptions?
  split
  · next options hoptions =>
    rw [hoptions]
    rfl
  · next hnot =>
    have hnone : (c.properties.get? "options").bind Json.asArray? = none := by
      rcases hvalue : c.properties.get? "options" with _ | value
      · rfl
      · cases value with
        | array options => exact absurd hvalue (hnot options)
        | _ => rfl
    rw [hnone, Option.none_or]
    rcases c.dataSource with _ | source
    · rfl
    · cases source with
      | literal value => cases value <;> rfl
      | _ => rfl

/-- The options that count after the sentinels are those that counted before,
each of them filled. -/
theorem staticOptions?_withOptionSentinels
    (hselect : c.kind.isSelectLike = true) :
    (c.withOptionSentinels sentinel).staticOptions?
      = c.staticOptions?.map
        (List.map (fillOption sentinel c.optionValueKey)) := by
  -- options are a list, in a property or else in the data source, and filling
  -- keeps it one
  have hproperty : ((Fields.get? c.properties "options").map
        (fillProperty sentinel c.optionValueKey "options")).bind Json.asArray?
      = ((c.properties.get? "options").bind Json.asArray?).map
        (List.map (fillOption sentinel c.optionValueKey)) := by
    rcases Fields.get? c.properties "options" with _ | value
    · rfl
    · cases value <;> rfl
  have hsource :
      (fillSource sentinel c.optionValueKey c.dataSource).bind
        DataSource.options?
      = (c.dataSource.bind DataSource.options?).map
        (List.map (fillOption sentinel c.optionValueKey)) := by
    rcases c.dataSource with _ | source
    · rfl
    · cases source with
      | literal value => cases value <;> rfl
      | _ => rfl
  rw [withOptionSentinels_of_select hselect, staticOptions?_eq_or,
    staticOptions?_eq_or, Option.map_or, ← hproperty, ← hsource,
    Fields.get?_mapValues]

/-- A component with sentinels has no option without a value, if it is a
select. -/
theorem isEmptyOption_withOptionSentinels (hs : sentinel ≠ "")
    (hselect : (c.withOptionSentinels sentinel).kind.isSelectLike = true)
    {options : List Json}
    (hoptions : (c.withOptionSentinels sentinel).staticOptions?
      = some options) :
    ∀ option ∈ options,
      View.isEmptyOption (c.withOptionSentinels sentinel).optionValueKey
        option = false := by
  rw [kind_withOptionSentinels] at hselect
  rw [staticOptions?_withOptionSentinels hselect] at hoptions
  obtain ⟨before, _, rfl⟩ := Option.map_eq_some_iff.1 hoptions
  intro option hoption
  obtain ⟨old, _, rfl⟩ := List.mem_map.1 hoption
  rw [optionValueKey_withOptionSentinels, View.isEmptyOption_eq_lacksValue,
    lacksValue_fillOption hs]

/-- The id and the kind of a component, and how many options it has, if it has a
list of them. -/
def optionShape (c : Component) : String × ComponentKind × Option Nat :=
  (c.id, c.kind, c.staticOptions?.map List.length)

theorem optionShape_withOptionSentinels (c : Component) :
    (c.withOptionSentinels sentinel).optionShape = c.optionShape := by
  by_cases hselect : c.kind.isSelectLike = true
  · have hlength :
        (c.withOptionSentinels sentinel).staticOptions?.map List.length
        = c.staticOptions?.map List.length := by
      rw [staticOptions?_withOptionSentinels hselect, Option.map_map]
      congr 1
      funext options
      exact List.length_map _
    rw [optionShape, hlength,
      withOptionSentinels_of_select hselect, optionShape]
  · rw [withOptionSentinels, if_neg hselect]

end Component

/-- A rename goes through the options, each for itself. -/
theorem KeyRename.optionShape_onComponent (r : KeyRename) (c : Component) :
    (r.onComponent c).optionShape = c.optionShape := by
  have hproperty :
      (((Fields.get? c.properties "options").map r.onTemplates).bind
        Json.asArray?).map List.length
      = ((c.properties.get? "options").bind Json.asArray?).map List.length := by
    rcases Fields.get? c.properties "options" with _ | value
    · rfl
    · cases value with
      | array options =>
        exact congrArg some (Json.length_mapStringsOfItems _ options)
      | _ => rfl
  have hsource : (c.dataSource.map r.onDataSource).bind DataSource.options?
      = c.dataSource.bind DataSource.options? := by
    rcases c.dataSource with _ | source
    · rfl
    · cases source <;> rfl
  have hlength : (r.onComponent c).staticOptions?.map List.length
      = c.staticOptions?.map List.length := by
    rw [Component.staticOptions?_eq_or, Component.staticOptions?_eq_or,
      Option.map_or, Option.map_or, ← hproperty, ← hsource]
    simp only [onComponent, Fields.get?_mapValues]
    rfl
  rw [Component.optionShape, hlength, Component.optionShape]
  rfl

/-! ## Options of a document -/

namespace IntentDocument

variable {d : IntentDocument}

theorem components_onDocument (r : Revision) (d : IntentDocument) :
    (r.onDocument d).mutation.components
      = d.mutation.components.map r.component := by
  simp [Revision.onDocument, Revision.onMutation, Mutation.components]

/-- Every component of a normalized document went through the sentinels last. -/
theorem exists_of_mem_components_normalize {settings : NormalizeSettings}
    {c : Component} (hc : c ∈ (d.normalize settings).1.mutation.components) :
    ∃ before : Component,
      c = before.withOptionSentinels settings.filterSentinel := by
  rw [fst_normalize, components_onDocument] at hc
  obtain ⟨before, _, rfl⟩ := List.mem_map.1 hc
  exact ⟨before, rfl⟩

theorem optionViolations_normalize {settings : NormalizeSettings}
    (hs : settings.filterSentinel ≠ "") (d : IntentDocument) :
    (View.ofDocument (d.normalize settings).1).optionViolations = [] := by
  rw [View.optionViolations, List.map_eq_nil_iff, List.filter_eq_nil_iff]
  intro c hc hempty
  obtain ⟨hmem, hselect⟩ := List.mem_filter.1 hc
  obtain ⟨before, rfl⟩ := exists_of_mem_components_normalize hmem
  obtain ⟨options, hoptions, hany⟩ := (Option.any_eq_true _ _).1 hempty
  obtain ⟨option, hoption, hlacks⟩ := List.any_eq_true.1 hany
  rw [Component.isEmptyOption_withOptionSentinels hs hselect hoptions option
    hoption] at hlacks
  cases hlacks

/-- No pass takes a component or an option away, or adds one. -/
theorem optionShape_normalize (settings : NormalizeSettings)
    (d : IntentDocument) :
    (d.normalize settings).1.mutation.components.map Component.optionShape
      = d.mutation.components.map Component.optionShape := by
  have hrenames : ∀ (renames : List KeyRename) (c : Component),
      (renames.foldl (fun c r => r.onComponent c) c).optionShape
        = c.optionShape :=
    fun renames c => List.foldlRecOn renames _
      (motive := fun c' : Component => c'.optionShape = c.optionShape) rfl
      fun c' h r _ => (r.optionShape_onComponent c').trans h
  rw [fst_normalize, withFilterKeys, KeyRename.foldl_onDocument]
  generalize (d.respelled settings).filterRenames = renames
  simp only [respelled, components_onDocument, List.map_map]
  refine List.map_congr_left fun c _ => ?_
  exact (Component.optionShape_withOptionSentinels _).trans (hrenames renames _)

/-- With a sentinel that is not the empty text, normalization heals the options
of every document: the rule finds none without a value, and so no report of any
mode has it. They are healed in place, for every component is still there, with
as many options as it had. -/
theorem options_normalize {config : Configuration}
    (hs : config.normalize.filterSentinel ≠ "") (d : IntentDocument) :
    (View.ofDocument (d.normalize config.normalize).1).optionViolations = []
      ∧ (∀ mode, ∀ f ∈
          (View.ofDocument (d.normalize config.normalize).1).validate config mode,
        f.rule ≠ "static_options_not_empty")
      ∧ (d.normalize config.normalize).1.mutation.components.map
          Component.optionShape
        = d.mutation.components.map Component.optionShape := by
  have hnone := optionViolations_normalize hs d
  refine ⟨hnone, fun mode f hf => ?_, optionShape_normalize config.normalize d⟩
  exact View.rule_ne_of_optionViolations_eq_nil hnone hf

/-- A select with its options in a property, the values under another name than
usual, and one with them in its data source, where an option is its own
value. -/
def optionPanel : IntentDocument where
  intentType := .create
  mutation := { Mutation.empty with
    componentsAdded := [
      ⟨"region", .select, [("bindKey", .string "regionFilter"),
        ("optionValueKey", .string "code"),
        ("options", .array
          [.object [("code", .string ""), ("label", .string "All")],
            .object [("code", .string "n"), ("value", .string "")]])],
        none, [], [], none⟩]
    componentsUpdated := [
      ⟨"sort", .select, [("bindKey", .string "sortOrder")],
        some (.literal (.array [.string "", .string "name"])), [], [], none⟩] }
  prior := none
  executionGraph := none

/-- Both selects are refused, and neither is refused any more. -/
theorem options_normalize_optionPanel :
    Configuration.default.normalize.filterSentinel ≠ ""
      ∧ (View.ofDocument optionPanel).optionViolations
        = [.emptyOption "select" "region", .emptyOption "select" "sort"]
      ∧ (View.ofDocument
        (optionPanel.normalize
          Configuration.default.normalize).1).optionViolations = [] := by
  have hs : Configuration.default.normalize.filterSentinel ≠ "" := by decide
  exact ⟨hs, by decide +kernel, (options_normalize hs optionPanel).1⟩

end IntentDocument

end IntentGraph
