import IntentGraph.Configuration
import IntentGraph.Key.FilterAlias
import IntentGraph.Normalization.FilterKeys
import IntentGraph.Normalization.Revision

/-!
# Normalization

The first stage brings a document into its normal spelling, in six passes that
never fail. A pass revises the mutation and the snapshot alike; it leaves
records for the mutation only, except that a rename of a filter key is recorded
wherever the key was found.
-/

namespace IntentGraph

/-! ## Sentinels in filter state -/

/-- Whether a value is null or the empty text. -/
def isUnset : Json → Bool
  | .null => true
  | .string s => s = ""
  | _ => false

/-- Whether an entry of a state map is filter state that is not set. -/
def isUnsetFilter (key : String) (value : Json) : Bool :=
  Key.isFilterKey key && isUnset value

/-- The state map with the sentinel in the place of unset filter state. -/
def withFilterSentinels (sentinel : String) (state : Fields) : Fields :=
  state.mapValues fun key value => if isUnsetFilter key value
    then .string sentinel else value

/-- The records of the filter state that is set. -/
def filterSentinelRecords (sentinel : String) (state : Fields) : AuditLog :=
  (state.filter fun (key, value) => isUnsetFilter key value).map fun (key, _) =>
    ⟨.normalize, none, .filterSentinel, "'" ++ key ++ "' defaults to '"
      ++ sentinel ++ "'"⟩

/-- Sentinels in the place of unset filter state. -/
def filterSentinels (sentinel : String) : Revision :=
  { Revision.identity with state := withFilterSentinels sentinel }

/-! ## Sentinels in options -/

/-- The value with the sentinel in the place of the empty text. -/
def fillText (sentinel : String) (value : Json) : Json :=
  if value = .string "" then .string sentinel else value

/-- Whether the value of an option, in the field `valueKey` of an object, is the
empty text. -/
def lacksValue (valueKey : String) : Json → Bool
  | .object option => Fields.get? option valueKey = some (.string "")
  | option => option = .string ""

/-- The option with the sentinel in the place of an empty value. -/
def fillOption (sentinel valueKey : String) : Json → Json
  | .object option => .object (Fields.mapValues
      (fun key value => if key = valueKey then fillText sentinel value
        else value) option)
  | option => fillText sentinel option

namespace Component

/-- The options at the property of a component. -/
def propertyOptions (c : Component) : List Json :=
  ((c.properties.get? "options").bind Json.asArray?).getD []

/-- The options of a literal data source. -/
def literalOptions (c : Component) : List Json :=
  match c.dataSource with
  | some (.literal (.array options)) => options
  | _ => []

/-- The number of options without a value, in both places. -/
def emptyOptionCount (c : Component) : Nat :=
  if c.kind.isSelectLike then
    (c.propertyOptions ++ c.literalOptions).countP (lacksValue c.optionValueKey)
  else 0

/-- The component with the sentinel in the place of empty option values. -/
def withOptionSentinels (sentinel : String) (c : Component) : Component :=
  if c.kind.isSelectLike then
    let fill (options : List Json) : Json :=
      .array (options.map (fillOption sentinel c.optionValueKey))
    { c with
      properties := c.properties.mapValues fun name value =>
        match name, value with
        | "options", .array options => fill options
        | _, value => value
      dataSource := match c.dataSource with
        | some (.literal (.array options)) => some (.literal (fill options))
        | source => source }
  else c

/-- The record of option values that are filled. -/
def optionSentinelRecord? (sentinel : String) (c : Component) :
    Option AuditRecord :=
  if c.emptyOptionCount = 0 then none
  else some ⟨.normalize, none, .optionSentinel,
    "component '" ++ c.id ++ "': " ++ toString c.emptyOptionCount
      ++ " empty option value(s) -> '" ++ sentinel ++ "'"⟩

end Component

/-- Sentinels in the place of empty option values. -/
def optionSentinels (sentinel : String) : Revision :=
  { Revision.identity with component := Component.withOptionSentinels sentinel }

/-! ## The run of all passes -/

/-- A pass of normalization: the document that it gives and the records that it
leaves. -/
structure Pass where
  apply : IntentDocument → IntentDocument
  records : IntentDocument → AuditLog

/-- The pass that revises every part, with a record for some of the mutation's
actions. -/
def Pass.ofActions (r : Revision) (record? : Action → Option AuditRecord) :
    Pass :=
  ⟨r.onDocument, fun d => d.mutation.actions.filterMap record?⟩

/-- The passes of normalization, in order. -/
def Pass.all (settings : NormalizeSettings) : List Pass := [
  .ofActions canonicalIds Action.canonicalIdRecord?,
  .ofActions (migratedKinds settings) (Action.migratedKindRecord? settings),
  .ofActions loweredCopies Action.copyStepRecord?,
  ⟨IntentDocument.withFilterKeys,
    fun d => d.filterRenames.map KeyRename.record⟩,
  ⟨(filterSentinels settings.filterSentinel).onDocument, fun d =>
    filterSentinelRecords settings.filterSentinel d.mutation.stateAdded
      ++ filterSentinelRecords settings.filterSentinel d.mutation.stateUpdated⟩,
  ⟨(optionSentinels settings.filterSentinel).onDocument, fun d =>
    d.mutation.components.filterMap
      (Component.optionSentinelRecord? settings.filterSentinel)⟩]

/-- Runs a list of passes, one after the other. -/
def Pass.run : List Pass → IntentDocument → IntentDocument × AuditLog
  | [], d => (d, [])
  | pass :: passes, d =>
    let (result, log) := run passes (pass.apply d)
    (result, pass.records d ++ log)

/-- The document in its normal spelling, and the records of what was changed. -/
def IntentDocument.normalize (settings : NormalizeSettings)
    (d : IntentDocument) :
    IntentDocument × AuditLog := Pass.run (Pass.all settings) d

end IntentGraph
