import IntentGraph.View

/-!
# Ownership of components

A page owns the components it lists and a component owns its children. Ownership
should be a forest: every claim names a component that exists, no component has
two owners, and none is its own ancestor. Whatever is claimed, the first claim
on a component decides who owns it.

* `Ownership.issues` are the claims and components that are at odds with that.
* `Ownership.pageOf?` is the page that a component ends up on: the page that
  owns the topmost component above it, or else that component's own page id.
* `Ownership.ascend` climbs from owner to owner, and stops at a page, at a
  component without owner, or at the first component it meets again.
-/

namespace IntentGraph

/-- What owns a component. -/
inductive Owner where
  | page (id : String)
  | component (id : String)
  deriving DecidableEq

namespace Owner

/-- How messages name an owner. -/
def describe : Owner → String
  | .page id => "page '" ++ id ++ "'"
  | .component id => "component '" ++ id ++ "'"

end Owner

/-- The claim of an owner on a component. -/
structure Claim where
  owner : Owner
  child : String
  deriving DecidableEq

/-- What is at odds with ownership being a forest. -/
inductive OwnershipIssue where
  | unknownChild (parent : Owner) (child : String)
  | multipleOwners (child : String) (first second : Owner)
  | cycle (id : String)
  deriving DecidableEq

namespace OwnershipIssue

/-- The wording of an issue. -/
def message : OwnershipIssue → String
  | .unknownChild parent child =>
    parent.describe ++ " references unknown component '" ++ child ++ "'"
  | .multipleOwners child first second =>
    "component '" ++ child ++ "' is owned by both " ++ first.describe ++ " and "
      ++ second.describe
  | .cycle id => "component '" ++ id ++ "' is its own ancestor"

/-- The component that an issue is about. -/
def subject : OwnershipIssue → String
  | .unknownChild _ child => child
  | .multipleOwners child _ _ => child
  | .cycle id => id

/-- Writes an issue. -/
def encode : OwnershipIssue → Json
  | .unknownChild parent child => .object [("issue", .string "unknown_child"),
      ("parent", .string parent.describe), ("child", .string child)]
  | .multipleOwners child first second =>
    .object [("issue", .string "multiple_owners"),
      ("child", .string child), ("first", .string first.describe),
      ("second", .string second.describe)]
  | .cycle id => .object [("issue", .string "cycle"), ("id", .string id)]

end OwnershipIssue

/-- The components of a view and the claims on them. -/
structure Ownership where
  components : List Component
  claims : List Claim

namespace Ownership

/-- Puts a component into a list that ascends by id. -/
def insertById (c : Component) : List Component → List Component
  | [] => [c]
  | d :: rest => if c.id < d.id then c :: d :: rest else d :: insertById c rest

/-- The claims of pages, in the order of the view, and then those of components,
by id. -/
def ofView (v : View) : Ownership :=
  let components := v.components.foldr insertById []
  { components
    claims := (v.pages.flatMap fun p => p.components.map fun child =>
      ⟨.page p.id, child⟩)
      ++ components.flatMap fun c => c.childIds.map fun child =>
        ⟨.component c.id, child⟩ }

/-- The component of an id. -/
def component? (o : Ownership) (id : String) : Option Component :=
  o.components.find? (·.id == id)

/-- Whether an id is that of a component. -/
def isKnown (o : Ownership) (id : String) : Bool :=
  o.components.any (·.id == id)

/-- The owner of a component: the first that claims it. -/
def owner? (o : Ownership) (id : String) : Option Owner :=
  if o.isKnown id then (o.claims.find? (·.child == id)).map (·.owner) else none

/-- Where a climb from owner to owner ends. -/
inductive Ascent where
  | page (page : String)
  | top (id : String)
  | revisited (id : String)
  deriving DecidableEq

/-- Climbs from a component to its owner, at most `fuel` times, past the
components seen so far. -/
def ascend (o : Ownership) : (fuel : Nat) → (seen : List String) →
    (id : String) → Ascent
  | 0, _, id => .revisited id
  | fuel + 1, seen, id =>
    if seen.contains id then .revisited id
    else match o.owner? id with
      | some (.page page) => .page page
      | some (.component parent) => o.ascend fuel (id :: seen) parent
      | none => .top id

/-- Climbs from a component as far as it goes. -/
def climb (o : Ownership) (id : String) : Ascent :=
  o.ascend (o.components.length + 1) [] id

/-- The page that a component ends up on. -/
def pageOf? (o : Ownership) (id : String) : Option String :=
  if o.isKnown id then
    match o.climb id with
    | .page page => some page
    | .top top => (o.component? top).bind (·.pageId)
    | .revisited top => (o.component? top).bind (·.pageId)
  else none

/-- What is wrong with a claim. -/
def claimIssue? (o : Ownership) (claim : Claim) : Option OwnershipIssue :=
  if o.isKnown claim.child then
    match o.owner? claim.child with
    | some first =>
      -- an owner may list a child twice
      if first = claim.owner then none
        else some (.multipleOwners claim.child first claim.owner)
    | none => none
  else some (.unknownChild claim.owner claim.child)

/-- The components that climbs meet again, each once. -/
def cyclic (o : Ownership) : List String :=
  distinctBy id (o.components.filterMap fun c =>
    match o.climb c.id with
    | .revisited id => some id
    | _ => none)

/-- All that is at odds with ownership being a forest. -/
def issues (o : Ownership) : List OwnershipIssue :=
  o.claims.filterMap o.claimIssue? ++ o.cyclic.map .cycle

end Ownership

end IntentGraph
