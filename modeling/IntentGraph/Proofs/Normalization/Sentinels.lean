import IntentGraph.Normalization
import IntentGraph.Proofs.Json
import IntentGraph.Proofs.Normalization.Standard

/-!
# What sentinels fill stays filled

After a pass of sentinels nothing is unset that it could fill, and a second pass
finds nothing to do: `isFilledState_withFilterSentinels` for filter state,
`Component.isFilled_withOptionSentinels` for the options of a select. Only the
second needs that the field of an option that holds its value is still the same
one after the first pass.
-/

namespace IntentGraph

variable {sentinel : String}

/-! ## Filter state -/

/-- No filter state is unset. -/
def IsFilledState (state : Fields) : Prop :=
  ∀ entry ∈ state, isUnsetFilter entry.1 entry.2 = false

theorem isFilledState_withFilterSentinels (hs : sentinel ≠ "")
    (state : Fields) :
    IsFilledState (withFilterSentinels sentinel state) := by
  rintro ⟨key, value⟩ hentry
  obtain ⟨old, _, rfl⟩ := Fields.mem_mapValues.1 hentry
  show isUnsetFilter key (if isUnsetFilter key old then .string sentinel
    else old) = false
  by_cases hunset : isUnsetFilter key old = true
  · rw [if_pos hunset]
    simp [isUnsetFilter, isUnset, hs]
  · rw [if_neg hunset]
    simpa using hunset

/-- Filling state twice is filling it once. -/
theorem withFilterSentinels_withFilterSentinels (state : Fields) :
    withFilterSentinels sentinel (withFilterSentinels sentinel state)
      = withFilterSentinels sentinel state := by
  simp only [withFilterSentinels, Fields.mapValues_mapValues]
  congr 1
  funext key value
  by_cases hunset : isUnsetFilter key value = true
  · simp only [if_pos hunset, ite_self]
  · simp only [if_neg hunset]

theorem IsFilledState.withFilterSentinels_eq {state : Fields}
    (h : IsFilledState state) :
    withFilterSentinels sentinel state = state :=
  map_eq_self fun entry hentry => by simp [h entry hentry]

theorem IsFilledState.records_eq_nil {state : Fields}
    (h : IsFilledState state) :
    filterSentinelRecords sentinel state = [] := by
  rw [filterSentinelRecords, List.map_eq_nil_iff, List.filter_eq_nil_iff]
  rintro ⟨key, value⟩ hentry
  simp [h _ hentry]

/-! ## Options -/

/-- No option lacks its value, and the sentinel has nothing to fill. -/
def Component.IsFilled (sentinel : String) (c : Component) : Prop :=
  c.withOptionSentinels sentinel = c ∧ c.emptyOptionCount = 0

theorem fillText_string (s : String) :
    fillText sentinel (.string s)
      = .string (if s = "" then sentinel else s) := by
  unfold fillText
  by_cases hs : s = "" <;> simp [hs]

/-- What was filled is no empty text. -/
theorem fillText_ne (hs : sentinel ≠ "") (value : Json) :
    fillText sentinel value ≠ .string "" := by
  unfold fillText
  split
  · simpa using hs
  · assumption

theorem fillText_fillText (value : Json) :
    fillText sentinel (fillText sentinel value) = fillText sentinel value := by
  by_cases h : value = .string ""
  · subst h
    simp only [fillText_string, if_true, Json.string.injEq]
    split <;> rfl
  · have hkeep : fillText sentinel value = value := if_neg h
    rw [hkeep, hkeep]

theorem fillOption_fillOption (key : String) (option : Json) :
    fillOption sentinel key (fillOption sentinel key option)
      = fillOption sentinel key option := by
  cases option with
  | object fields =>
    simp only [fillOption, Fields.mapValues_mapValues, Json.object.injEq]
    congr 1
    funext name value
    by_cases hname : name = key
    · simp only [if_pos hname, fillText_fillText]
    · simp only [if_neg hname]
  | string s =>
    have hidem : fillText sentinel (fillText sentinel (.string s))
        = fillText sentinel (.string s) :=
      fillText_fillText _
    show fillOption sentinel key (fillText sentinel (.string s))
      = fillText sentinel (.string s)
    rw [fillText_string] at hidem ⊢
    exact hidem
  | _ => rfl

theorem lacksValue_fillOption (hs : sentinel ≠ "") (key : String)
    (option : Json) :
    lacksValue key (fillOption sentinel key option) = false := by
  cases option with
  | object fields =>
    simp only [fillOption, lacksValue, Fields.get?_mapValues, if_true,
      decide_eq_false_iff_not]
    cases Fields.get? fields key with
    | none => simp
    | some value => simpa using fillText_ne hs value
  | string s =>
    have hne := fillText_ne hs (.string s)
    show lacksValue key (fillText sentinel (.string s)) = false
    rw [fillText_string] at hne ⊢
    exact decide_eq_false hne
  | _ => rfl

theorem mem_strings_fillText {value : Json} {s : String}
    (h : s ∈ (fillText sentinel value).strings) :
    s ∈ value.strings ∨ s = sentinel := by
  unfold fillText at h
  split at h
  · exact .inr (List.mem_singleton.1 h)
  · exact .inl h

/-- A filled option holds the strings that it held, and the sentinel. -/
theorem mem_strings_fillOption {key : String} {option : Json} {s : String}
    (h : s ∈ (fillOption sentinel key option).strings) :
    s ∈ option.strings ∨ s = sentinel := by
  cases option with
  | object fields =>
    obtain ⟨value, hvalue, hs⟩ := Json.mem_stringsOfFields.1 h
    obtain ⟨name, hentry⟩ := Fields.mem_values.1 hvalue
    obtain ⟨old, hold, rfl⟩ := Fields.mem_mapValues.1 hentry
    have hs' : s ∈ old.strings ∨ s = sentinel := by
      split at hs
      · exact mem_strings_fillText hs
      · exact .inl hs
    exact hs'.imp_left fun hs =>
      Json.mem_stringsOfFields.2 ⟨old, Fields.mem_values.2 ⟨name, hold⟩, hs⟩
  | _ => exact mem_strings_fillText h

namespace Component

/-- What becomes of a property of a select. -/
def fillProperty (sentinel valueKey : String) (name : String)
    (value : Json) : Json :=
  match name, value with
  | "options", .array options =>
    .array (options.map (fillOption sentinel valueKey))
  | _, value => value

/-- What becomes of the data source of a select. -/
def fillSource (sentinel valueKey : String) :
    Option DataSource → Option DataSource
  | some (.literal (.array options)) =>
    some (.literal (.array (options.map (fillOption sentinel valueKey))))
  | source => source

variable {c : Component}

theorem withOptionSentinels_of_select (hselect : c.kind.isSelectLike = true) :
    c.withOptionSentinels sentinel = { c with
      properties :=
        c.properties.mapValues (fillProperty sentinel c.optionValueKey)
      dataSource := fillSource sentinel c.optionValueKey c.dataSource } := by
  rw [withOptionSentinels, if_pos hselect]
  rfl

theorem fillProperty_of_ne {valueKey name : String} (hname : name ≠ "options")
    (value : Json) :
    fillProperty sentinel valueKey name value = value := by
  unfold fillProperty
  split
  · exact absurd rfl hname
  · rfl

theorem fillProperty_fillProperty (valueKey name : String) (value : Json) :
    fillProperty sentinel valueKey name
      (fillProperty sentinel valueKey name value)
      = fillProperty sentinel valueKey name value := by
  by_cases hname : name = "options"
  · subst hname
    cases value with
    | array options =>
      show Json.array ((options.map _).map _) = Json.array (options.map _)
      rw [List.map_map]
      congr 2
      funext option
      exact fillOption_fillOption valueKey option
    | _ => rfl
  · simp only [fillProperty_of_ne hname]

theorem fillSource_fillSource (valueKey : String) (source : Option DataSource) :
    fillSource sentinel valueKey (fillSource sentinel valueKey source)
      = fillSource sentinel valueKey source := by
  cases source with
  | none => rfl
  | some source =>
    cases source with
    | literal value =>
      cases value with
      | array options =>
        show some (DataSource.literal (.array ((options.map _).map _))) = _
        rw [List.map_map]
        congr 4
        funext option
        exact fillOption_fillOption valueKey option
      | _ => rfl
    | _ => rfl

theorem kind_withOptionSentinels :
    (c.withOptionSentinels sentinel).kind = c.kind := by
  rw [withOptionSentinels]
  split <;> rfl

/-- Filling touches no property but the options. -/
theorem nonemptyProperty?_withOptionSentinels {name : String}
    (hname : name ≠ "options") :
    (c.withOptionSentinels sentinel).nonemptyProperty? name
      = c.nonemptyProperty? name := by
  by_cases hselect : c.kind.isSelectLike = true
  · rw [withOptionSentinels_of_select hselect]
    simp only [nonemptyProperty?, property?, Fields.get?_mapValues]
    congr 2
    cases Fields.get? c.properties name with
    | none => rfl
    | some value => rw [Option.map_some, fillProperty_of_ne hname]
  · rw [withOptionSentinels, if_neg hselect]

/-- Filling does not move the values of the options. -/
theorem optionValueKey_withOptionSentinels :
    (c.withOptionSentinels sentinel).optionValueKey = c.optionValueKey := by
  rw [optionValueKey, nonemptyProperty?_withOptionSentinels (by decide),
    optionValueKey]

/-- Filling twice is filling once. -/
theorem withOptionSentinels_withOptionSentinels :
    (c.withOptionSentinels sentinel).withOptionSentinels sentinel
      = c.withOptionSentinels sentinel := by
  by_cases hselect : c.kind.isSelectLike = true
  · have hselect' :
        (c.withOptionSentinels sentinel).kind.isSelectLike = true := by
      rwa [kind_withOptionSentinels]
    rw [withOptionSentinels_of_select hselect',
      optionValueKey_withOptionSentinels, withOptionSentinels_of_select hselect]
    simp only [Fields.mapValues_mapValues, fillProperty_fillProperty,
      fillSource_fillSource]
  · have hkeep : c.withOptionSentinels sentinel = c := by
      rw [withOptionSentinels, if_neg hselect]
    rw [hkeep, hkeep]

/-- Filling leaves no option without a value. -/
theorem emptyOptionCount_withOptionSentinels (hs : sentinel ≠ "") :
    (c.withOptionSentinels sentinel).emptyOptionCount = 0 := by
  by_cases hselect : c.kind.isSelectLike = true
  · rw [emptyOptionCount, kind_withOptionSentinels, if_pos hselect,
      optionValueKey_withOptionSentinels, withOptionSentinels_of_select hselect,
      List.countP_eq_zero]
    have hfilled : ∀ (options : List Json),
        ∀ option ∈ options.map (fillOption sentinel c.optionValueKey),
          ¬ lacksValue c.optionValueKey option = true := by
      intro options option hoption
      obtain ⟨old, _, rfl⟩ := List.mem_map.1 hoption
      rw [lacksValue_fillOption hs]
      decide
    intro option hoption
    rcases List.mem_append.1 hoption with hoption | hoption
    · -- options in a property
      simp only [propertyOptions, Fields.get?_mapValues] at hoption
      cases hvalue : Fields.get? c.properties "options" with
      | none => simp [hvalue] at hoption
      | some value =>
        cases value with
        | array options =>
          rw [hvalue] at hoption
          exact hfilled options option hoption
        | _ => simp [hvalue, fillProperty, Json.asArray?] at hoption
    · -- options in the data source
      simp only [literalOptions] at hoption
      split at hoption
      · next options hsource =>
        unfold fillSource at hsource
        split at hsource
        · cases hsource
          exact hfilled _ option hoption
        · next hother => exact absurd hsource (hother _)
      · cases hoption
  · rw [emptyOptionCount, kind_withOptionSentinels, if_neg hselect]

theorem isFilled_withOptionSentinels (hs : sentinel ≠ "") :
    (c.withOptionSentinels sentinel).IsFilled sentinel :=
  ⟨withOptionSentinels_withOptionSentinels,
    emptyOptionCount_withOptionSentinels hs⟩

theorem actionRefs_withOptionSentinels :
    (c.withOptionSentinels sentinel).actionRefs = c.actionRefs := by
  rw [withOptionSentinels]
  split <;> rfl

/-! ### Keys -/

theorem stateUpdates_withOptionSentinels :
    (c.withOptionSentinels sentinel).stateUpdates = c.stateUpdates := by
  rw [withOptionSentinels]
  split <;> rfl

theorem mem_strings_fillProperty {valueKey name : String}
    {value : Json} {s : String}
    (h : s ∈ (fillProperty sentinel valueKey name value).strings) :
    s ∈ value.strings ∨ s = sentinel := by
  unfold fillProperty at h
  split at h
  · obtain ⟨item, hitem, hs⟩ := Json.mem_stringsOfItems.1 h
    obtain ⟨option, hoption, rfl⟩ := List.mem_map.1 hitem
    exact (mem_strings_fillOption hs).imp_left fun hs =>
      Json.mem_stringsOfItems.2 ⟨option, hoption, hs⟩
  · exact .inl h

theorem readKey?_fillSource {valueKey : String} (source : Option DataSource) :
    (fillSource sentinel valueKey source).bind DataSource.readKey?
      = source.bind DataSource.readKey? := by
  unfold fillSource
  split <;> rfl

/-- A filled component reads the keys that it read, and those that the sentinel
refers to. -/
theorem mem_readKeys_withOptionSentinels {key : String}
    (h : key ∈ (c.withOptionSentinels sentinel).readKeys) :
    key ∈ c.readKeys ∨ key ∈ Template.keysIn sentinel := by
  by_cases hselect : c.kind.isSelectLike = true
  · -- filling changes no property that names a key
    have hbinding :
        bindingProperties.filterMap
          (c.withOptionSentinels sentinel).nonemptyProperty?
        = bindingProperties.filterMap c.nonemptyProperty? :=
      List.filterMap_congr fun name hname =>
        nonemptyProperty?_withOptionSentinels (by
          rintro rfl
          revert hname
          decide)
    rw [readKeys, KeySet.mem_ofList, hbinding,
      withOptionSentinels_of_select hselect] at h
    simp only [readKey?_fillSource, List.mem_append] at h
    rw [readKeys, KeySet.mem_ofList]
    simp only [List.mem_append]
    rcases h with (h | h) | h
    · exact .inl (.inl (.inl h))
    · -- a key in the texts of a property, as it was or as it is filled
      obtain ⟨value, hvalue, hvalueKey⟩ := List.mem_flatMap.1 h
      obtain ⟨name, hentry⟩ := Fields.mem_values.1 hvalue
      obtain ⟨old, hold, rfl⟩ := Fields.mem_mapValues.1 hentry
      obtain ⟨s, hs, hkey⟩ := List.mem_flatMap.1 hvalueKey
      rcases mem_strings_fillProperty hs with hs | rfl
      · exact .inl (.inl (.inr (List.mem_flatMap.2
          ⟨old, Fields.mem_values.2 ⟨name, hold⟩,
            List.mem_flatMap.2 ⟨s, hs, hkey⟩⟩)))
      · exact .inr hkey
    · exact .inl (.inr h)
  · rw [withOptionSentinels, if_neg hselect] at h
    exact .inl h

end Component

end IntentGraph
