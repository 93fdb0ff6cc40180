import IntentGraph.Validation.Violation

/-!
# Rules on components

Each function lists the violations of one rule among the components of a
mutation.
-/

namespace IntentGraph.View

/-! ## Vocabulary and ownership -/

/-- Components of a kind that is not allowed. -/
def componentKindViolations (v : View) : List Violation :=
  v.mutation.components.filterMap fun c =>
    c.kind.unknown?.map (.componentKind c.id)

/-- Claims and components at odds with ownership being a forest. -/
def ownershipViolations (v : View) : List Violation :=
  (Ownership.ofView v).issues.map .ownership

/-! ## Lists -/

/-- The lists of the mutation. -/
def lists (v : View) : List Component :=
  v.mutation.components.filter (·.kind = .list)

/-- The value at a property, unless it is null. -/
def propertyValue? (c : Component) (key : String) : Option Json :=
  (c.properties.get? key).filter (· ≠ .null)

/-- Lists with a child defined in place. -/
def listChildrenViolations (v : View) : List Violation :=
  (v.lists.filter (·.hasInlineChild)).map fun c => .inlineListChildren c.id

/-- The ways in which a list says how to render its items. -/
def renderModels (c : Component) : List String :=
  (if (propertyValue? c "itemProps").isSome then ["itemProps"] else [])
    ++ (if (propertyValue? c "itemComponent").isSome
      then ["itemComponent"] else [])
    ++ (if c.children.isEmpty then [] else ["children"])

/-- Lists with more than one way to render their items. -/
def renderModelViolations (v : View) : List Violation :=
  (v.lists.filter fun c => 1 < (renderModels c).length).map fun c =>
    .mixedListModels c.id (renderModels c)

/-- The kind of a click. -/
def clickKind : String := "onClick"

/-- Whether a list of events in place has a click among them. -/
def hasInlineClick (events : Json) : Bool :=
  (events.asArray?.getD []).any fun e => (e.get? "kind").bind Json.asString?
    == some clickKind

/-- Whether the items of a list handle clicks themselves. -/
def itemHandlesClick (v : View) (c : Component) : Bool :=
  (match propertyValue? c "itemComponent" with
    | some (.object inlined) =>
      (Fields.get? inlined "events").any hasInlineClick
    | some (.string id) =>
      (v.component? id).any fun item => item.events.any (·.kind = clickKind)
    | _ => false)
  || match propertyValue? c "itemProps" with
    | some (.object props) => Fields.contains props clickKind
    | _ => false

/-- Lists whose items handle clicks themselves. -/
def itemClickViolations (v : View) : List Violation :=
  (v.lists.filter v.itemHandlesClick).map fun c => .clickOnItemTemplate c.id

/-! ## Bindings -/

/-- Whether a value names a state key. -/
def isPlainKey : Json → Bool
  | .string s => Template.isKey s.toList
  | _ => false

/-- Components with a disabled key that is no key. -/
def disabledKeyViolations (v : View) : List Violation :=
  v.mutation.components.filterMap fun c =>
    ((propertyValue? c "disabledKey").filter fun value => !isPlainKey value).map
      (.disabledKey c.id)

/-- The components of the mutation that let the user choose among options. -/
def selects (v : View) : List Component :=
  v.mutation.components.filter (·.kind.isSelectLike)

/-- What is wrong with the bindings of a select. -/
def selectBindingViolations (c : Component) : List Violation :=
  (if Text.isBlankText ((c.property? "optionValueKey").getD "") then
      [.noOptionValueKey c.kind.name c.id] else [])
  ++ match c.bindKey?.isSome, c.events.any (·.isStateUpdate) with
    | true, true => [.boundTwice c.kind.name c.id]
    | false, false => [.unbound c.kind.name c.id]
    | _, _ => []

/-- Selects that do not say which field is an option's value, or are not bound
in just one way. -/
def bindingViolations (v : View) : List Violation :=
  v.selects.flatMap selectBindingViolations

/-- Whether the value of an option is the empty text. -/
def isEmptyOption (valueKey : String) : Json → Bool
  | .string s => s = ""
  | .object option => Fields.get? option valueKey = some (.string "")
  | _ => false

/-- Selects with an option whose value is the empty text. -/
def optionViolations (v : View) : List Violation :=
  (v.selects.filter fun c =>
    c.staticOptions?.any fun options =>
      options.any (isEmptyOption c.optionValueKey)).map fun c =>
      .emptyOption c.kind.name c.id

/-! ## Advisories -/

/-- Components bound to the same key on the same page: the ids by page and
key. -/
abbrev Bindings := List ((String × String) × List String)

/-- Enters a component under its page and key; pages and keys ascend. -/
def enterBinding (page key id : String) : Bindings → Bindings
  | [] => [((page, key), [id])]
  | ((p, k), ids) :: rest =>
    if page < p ∨ page = p ∧ key < k then
      ((page, key), [id]) :: ((p, k), ids) :: rest
    else if page = p ∧ key = k then ((p, k), ids ++ [id]) :: rest
    else ((p, k), ids) :: enterBinding page key id rest

/-- The components of the view by the page they are on and the key they are
bound to. -/
def bindings (v : View) : Bindings :=
  let ownership := Ownership.ofView v
  v.components.foldl (fun found c =>
    match c.bindKey?, ownership.pageOf? c.id with
    | some key, some page => enterBinding page key c.id found
    | _, _ => found) []

/-- Keys that several components of a page are bound to. -/
def sharedBindingViolations (v : View) : List Violation :=
  (v.bindings.filter fun b => 1 < b.2.length).map fun ((page, key), ids) =>
    .sharedBinding page key ids

/-- Components other than lists with a child defined in place. -/
def inlineChildrenViolations (v : View) : List Violation :=
  (v.mutation.components.filter fun c =>
    c.kind ≠ .list && c.hasInlineChild).map fun c =>
    .inlineChildren c.id

end IntentGraph.View
