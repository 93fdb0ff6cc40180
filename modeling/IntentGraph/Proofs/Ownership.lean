import IntentGraph.Proofs.Ownership.Ascent

/-!
# The ownership check decides forests

`View.IsForest` says what the listing relation of a view should be: every listed
component exists, none has two owners, none is its own ancestor. Only the first
claim on a component is kept, and climbs go along what is kept; but a claim is
dropped only if there is an issue with it, so without issues nothing was
dropped. What the check finds nothing wrong with is then a matter of which
claims there are, and not of their order (`Ownership.issues_eq_nil_iff`).

* `View.issues_eq_nil`: the check finds nothing iff the listing relation is a
  forest.
* `View.no_issues_iff_forest`: the same in terms of the pages and the components
  of the view, and in whatever order they make their claims.
-/

namespace IntentGraph

open Relation

/-! ## Claims in any order -/

namespace Ownership

variable {o : Ownership}

/-- There is no issue iff every claim names a known component, no two name the
same one for different owners, and no component is above itself by claims
alone. -/
theorem issues_eq_nil_iff :
    o.issues = [] ↔ (∀ claim ∈ o.claims, o.isKnown claim.child = true)
      ∧ (∀ claim ∈ o.claims, ∀ claim' ∈ o.claims, claim.child = claim'.child →
        claim.owner = claim'.owner)
      ∧ ∀ id, ¬ TransGen
        (fun parent child => ⟨.component parent, child⟩ ∈ o.claims) id id := by
  have hissues : o.issues = []
      ↔ (∀ claim ∈ o.claims, o.isKnown claim.child = true
        ∧ o.owner? claim.child = some claim.owner)
      ∧ ∀ id, ¬ TransGen o.Above id id := by
    rw [issues, List.append_eq_nil_iff, List.filterMap_eq_nil_iff,
      List.map_eq_nil_iff, cyclic_eq_nil]
    exact and_congr_left fun _ =>
      forall_congr' fun claim => forall_congr' fun h => claimIssue?_eq_none h
  rw [hissues]
  constructor
  · rintro ⟨hkept, hacyclic⟩
    refine ⟨fun claim h => (hkept claim h).1,
      fun claim h claim' h' hchild => ?_, fun id hloop => ?_⟩
    · -- both owners are the one that is kept
      have howner := (hkept claim h).2
      rw [hchild, (hkept claim' h').2] at howner
      exact (Option.some.inj howner).symm
    · exact hacyclic id
        (TransGen.mono (fun _ child h => (hkept ⟨_, child⟩ h).2) id id hloop)
  · rintro ⟨hknown, hsingle, hacyclic⟩
    refine ⟨fun claim h => ⟨hknown claim h, ?_⟩, fun id hloop => ?_⟩
    · obtain ⟨first, hfirst⟩ := exists_owner? h (hknown claim h)
      have howner : first = claim.owner :=
        hsingle ⟨first, _⟩ (of_owner? hfirst).2 claim h rfl
      rw [hfirst, howner]
    · exact hacyclic id
        (TransGen.mono (fun _ _ habove => (of_owner? habove).2) id id hloop)

end Ownership

/-! ## Forests -/

namespace View

variable {v v' : View}

/-- Every listed component exists, none has two owners, and none is its own
ancestor. -/
structure IsForest (v : View) : Prop where
  resolves : ∀ owner child, v.Owns owner child →
    ∃ c ∈ v.components, c.id = child
  single : ∀ owner owner' child, v.Owns owner child → v.Owns owner' child →
    owner = owner'
  acyclic : ∀ id, ¬ TransGen v.Parent id id

/-- The check finds nothing iff the listing relation is a forest. -/
theorem issues_eq_nil : (Ownership.ofView v).issues = [] ↔ v.IsForest := by
  have hparent :
      (fun parent child =>
        ⟨.component parent, child⟩ ∈ (Ownership.ofView v).claims)
        = v.Parent := by
    funext parent child
    exact propext Ownership.mem_claims_ofView
  rw [Ownership.issues_eq_nil_iff, hparent]
  simp only [Ownership.mem_claims_ofView, Ownership.isKnown_ofView]
  constructor
  · rintro ⟨hresolves, hsingle, hacyclic⟩
    exact ⟨fun owner child h => hresolves ⟨owner, child⟩ h,
      fun owner owner' child h h' =>
        hsingle ⟨owner, child⟩ h ⟨owner', child⟩ h' rfl, hacyclic⟩
  · intro forest
    refine ⟨fun claim h => forest.resolves _ _ h,
      fun claim h claim' h' hchild => ?_, forest.acyclic⟩
    exact forest.single _ _ _ h (hchild ▸ h')

/-- A view with the same components, and pages that list what pages of the same
ids listed, is a forest too. -/
theorem IsForest.of_pages (forest : v.IsForest)
    (hcomponents : v'.components = v.components)
    (hpages : ∀ p' ∈ v'.pages, ∃ p ∈ v.pages,
      p'.id = p.id ∧ p'.components = p.components) :
    v'.IsForest := by
  have howns : ∀ owner child, v'.Owns owner child → v.Owns owner child := by
    rintro owner child (⟨p', hp', howner, hchild⟩ | ⟨c, hc, h⟩)
    · obtain ⟨p, hp, hid, hlisted⟩ := hpages p' hp'
      exact .inl ⟨p, hp, hid ▸ howner, hlisted ▸ hchild⟩
    · exact .inr ⟨c, hcomponents ▸ hc, h⟩
  refine ⟨fun owner child h => ?_, fun owner owner' child h h' => ?_,
    fun id h => ?_⟩
  · rw [hcomponents]
    exact forest.resolves owner child (howns _ _ h)
  · exact forest.single owner owner' child (howns _ _ h) (howns _ _ h')
  · exact forest.acyclic id (TransGen.mono (fun _ _ => howns _ _) id id h)

/-- A forest is known by its components: what is listed at all is one of
them. -/
theorem isForest_iff :
    v.IsForest ↔ (∀ owner child, v.Owns owner child →
      ∃ c ∈ v.components, c.id = child)
      ∧ (∀ c ∈ v.components, ∀ owner owner', v.Owns owner c.id →
        v.Owns owner' c.id →
        owner = owner')
      ∧ ∀ c ∈ v.components, ¬ TransGen v.Parent c.id c.id := by
  constructor
  · intro forest
    exact ⟨forest.resolves, fun c _ owner owner' =>
      forest.single owner owner' c.id, fun c _ => forest.acyclic c.id⟩
  · rintro ⟨hresolves, hsingle, hacyclic⟩
    refine ⟨hresolves, fun owner owner' child h h' => ?_, fun id hloop => ?_⟩
    · obtain ⟨c, hc, rfl⟩ := hresolves owner child h
      exact hsingle c hc owner owner' h h'
    · obtain ⟨parent, _, hlisted⟩ := TransGen.tail'_iff.1 hloop
      obtain ⟨c, hc, rfl⟩ := hresolves _ id hlisted
      exact hacyclic c hc hloop

/-- All that is listed exists iff this is so of what pages list and of what
components list. -/
theorem forall_owns_iff {P : String → Prop} :
    (∀ owner child, v.Owns owner child → P child) ↔
      (∀ p ∈ v.pages, ∀ child ∈ p.components, P child)
        ∧ ∀ c ∈ v.components, ∀ child ∈ c.childIds, P child := by
  constructor
  · intro h
    exact ⟨fun p hp child hchild => h _ child (.inl ⟨p, hp, rfl, hchild⟩),
      fun c hc child hchild => h _ child (.inr ⟨c, hc, rfl, hchild⟩)⟩
  · rintro ⟨hpages, hcomponents⟩ owner child
      (⟨p, hp, _, hchild⟩ | ⟨c, hc, _, hchild⟩)
    · exact hpages p hp child hchild
    · exact hcomponents c hc child hchild

/-- The check finds nothing iff all that pages and components list are
components of the view, none of them is listed by two owners, and none is its
own ancestor; and it would find nothing, or something, in whatever order the
claims were made. -/
theorem no_issues_iff_forest (m : Mutation) (prior : Option Snapshot) :
    let v : View := ⟨m, prior⟩
    let o := Ownership.ofView v
    (o.issues = [] ↔
      ((∀ p ∈ v.pages, ∀ child ∈ p.components, ∃ c ∈ v.components, c.id = child)
        ∧ ∀ parent ∈ v.components, ∀ child ∈ parent.childIds,
          ∃ c ∈ v.components, c.id = child)
      ∧ (∀ c ∈ v.components, ∀ owner owner', v.Owns owner c.id →
        v.Owns owner' c.id →
        owner = owner')
      ∧ ∀ c ∈ v.components, ¬ TransGen v.Parent c.id c.id)
    ∧ ∀ claims : List Claim, claims.Perm o.claims →
      ((Ownership.mk o.components claims).issues = [] ↔ o.issues = []) := by
  intro v o
  refine ⟨?_, fun claims hperm => ?_⟩
  · rw [issues_eq_nil, isForest_iff, forall_owns_iff]
  · rw [Ownership.issues_eq_nil_iff, Ownership.issues_eq_nil_iff]
    simp only [hperm.mem_iff]
    rfl

/-- A page lists a shelf, and the shelf a book and a lamp. The book was there
before, with a cover of its own; it is kept without. -/
def readingRoom : View where
  mutation := { Mutation.empty with
    pagesAdded := [⟨"room", none, none, ["shelf"], []⟩]
    componentsAdded := [
      ⟨"shelf", .container, [], none, [], [.named "book", .named "lamp"], none⟩,
      ⟨"lamp", .image, [], none, [], [], none⟩]
    componentsUpdated := [⟨"book", .card, [], none, [], [], none⟩] }
  prior := some { Snapshot.empty with
    components := [
      ⟨"book", .card, [], none, [], [.named "cover"], none⟩,
      ⟨"cover", .image, [], none, [], [], some "room"⟩] }

/-- The room with a lamp that holds the shelf it is on. -/
def loopedRoom : View where
  mutation := { readingRoom.mutation with
    componentsUpdated :=
      [⟨"lamp", .image, [], none, [], [.named "shelf"], none⟩]
    componentsAdded :=
      [⟨"shelf", .container, [], none, [], [.named "lamp"], none⟩] }
  prior := none

/-- The check finds nothing wrong with the room, nor would it with the claims
the other way round, so nothing in it is its own ancestor. In the looped room
the page has claimed the shelf before the lamp does, and no climb goes round;
but something is found. -/
theorem no_issues_iff_forest_readingRoom :
    let o := Ownership.ofView readingRoom
    let looped := Ownership.ofView loopedRoom
    (o.issues = []
      ∧ (∀ c ∈ readingRoom.components, ¬ TransGen readingRoom.Parent c.id c.id)
      ∧ (Ownership.mk o.components o.claims.reverse).issues = [])
    ∧ looped.cyclic = [] ∧ looped.issues ≠ [] := by
  intro o looped
  obtain ⟨hforest, horder⟩ :=
    no_issues_iff_forest readingRoom.mutation readingRoom.prior
  have hnone : o.issues = [] := by decide +kernel
  refine ⟨⟨hnone, (hforest.1 hnone).2.2,
    (horder _ (List.reverse_perm _)).2 hnone⟩,
    by decide +kernel, fun hlooped => ?_⟩
  have howns : loopedRoom.Parent "shelf" "lamp"
      ∧ loopedRoom.Parent "lamp" "shelf" :=
    ⟨Ownership.mem_claims_ofView.1
        (show ⟨.component "shelf", "lamp"⟩ ∈ looped.claims by decide +kernel),
      Ownership.mem_claims_ofView.1
        (show ⟨.component "lamp", "shelf"⟩ ∈ looped.claims by decide +kernel)⟩
  exact ((no_issues_iff_forest loopedRoom.mutation loopedRoom.prior).1.1
    hlooped).2.2
    ⟨"shelf", .container, [], none, [], [.named "lamp"], none⟩
    (by decide +kernel) (.tail (.single howns.1) howns.2)

end View

end IntentGraph
