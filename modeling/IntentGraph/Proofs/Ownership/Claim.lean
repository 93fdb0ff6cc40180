import IntentGraph.Ownership
import IntentGraph.Proofs.View
import Mathlib.Data.List.Perm.Basic

/-!
# Claims and owners

The components of an ownership are those of its view in another order, and its
claims are what the pages and the components of the view list. A component that
is known and claimed has an owner, which claims it.

* `View.Owns` is the listing relation of a view; `Ownership.mem_claims_ofView`
  says that the claims are its members.
* `Ownership.claimIssue?_eq_none`: a claim is in order iff what it names is
  known and owned by who claims it.
-/

namespace IntentGraph

namespace View

/-- An owner lists a component. -/
def Owns (v : View) (owner : Owner) (child : String) : Prop :=
  (∃ p ∈ v.pages, owner = .page p.id ∧ child ∈ p.components)
    ∨ ∃ c ∈ v.components, owner = .component c.id ∧ child ∈ c.childIds

/-- A component lists a component. -/
def Parent (v : View) (parent child : String) : Prop :=
  v.Owns (.component parent) child

end View

namespace Ownership

/-! ## Components -/

theorem perm_insertById (c : Component) (cs : List Component) :
    (insertById c cs).Perm (c :: cs) := by
  induction cs with
  | nil => exact .refl _
  | cons d rest ih =>
    rw [insertById]
    split
    · exact .refl _
    · exact (ih.cons d).trans (.swap c d rest)

/-- The components of the view, in another order. -/
theorem perm_components_ofView (v : View) :
    (ofView v).components.Perm v.components := by
  have hsort : ∀ cs : List Component, (cs.foldr insertById []).Perm cs := by
    intro cs
    induction cs with
    | nil => exact .refl _
    | cons c rest ih => exact (perm_insertById c _).trans (ih.cons c)
  exact hsort v.components

theorem mem_components_ofView {v : View} {c : Component} :
    c ∈ (ofView v).components ↔ c ∈ v.components :=
  (perm_components_ofView v).mem_iff

theorem component?_ofView {v : View} {c : Component} (hc : c ∈ v.components) :
    (ofView v).component? c.id = some c := by
  have hnodup : ((ofView v).components.map (·.id)).Nodup :=
    ((perm_components_ofView v).map _).nodup_iff.2 (nodup_map_distinctBy _ _)
  exact find?_eq_some_of_nodup hnodup (mem_components_ofView.2 hc)

/-! ## Claims -/

/-- The claims are the listings of the view. -/
theorem mem_claims_ofView {v : View} {claim : Claim} :
    claim ∈ (ofView v).claims ↔ v.Owns claim.owner claim.child := by
  obtain ⟨owner, child⟩ := claim
  have hclaims : (ofView v).claims
      = (v.pages.flatMap fun p => p.components.map fun child =>
        ⟨.page p.id, child⟩)
        ++ (ofView v).components.flatMap fun c =>
          c.childIds.map fun child => ⟨.component c.id, child⟩ := rfl
  rw [hclaims, List.mem_append, List.mem_flatMap, List.mem_flatMap, View.Owns]
  refine or_congr ?_ ?_
  · refine exists_congr fun p => and_congr_right fun _ => ?_
    simp [eq_comm, and_comm]
  · refine exists_congr fun c => ?_
    rw [mem_components_ofView]
    refine and_congr_right fun _ => ?_
    simp [eq_comm, and_comm]

variable {o : Ownership}

theorem isKnown_iff {id : String} :
    o.isKnown id = true ↔ id ∈ o.components.map (·.id) := by
  simp [isKnown]

theorem isKnown_ofView {v : View} {id : String} :
    (ofView v).isKnown id = true ↔ ∃ c ∈ v.components, c.id = id := by
  rw [isKnown_iff, List.mem_map]
  simp only [mem_components_ofView]

/-- A claimed component that is known has an owner, which claims it. -/
theorem exists_owner? {claim : Claim} (h : claim ∈ o.claims)
    (hknown : o.isKnown claim.child) :
    ∃ owner, o.owner? claim.child = some owner := by
  obtain ⟨first, hfirst⟩ :
      ∃ first, o.claims.find? (·.child == claim.child) = some first := by
    rw [← Option.isSome_iff_exists, isSome_find?_iff]
    exact List.mem_map_of_mem h
  exact ⟨first.owner, by rw [owner?, if_pos hknown, hfirst]; rfl⟩

theorem of_owner? {id : String} {owner : Owner} (h : o.owner? id = some owner) :
    o.isKnown id = true ∧ ⟨owner, id⟩ ∈ o.claims := by
  rw [owner?] at h
  split at h
  · next hknown =>
    obtain ⟨claim, hclaim, rfl⟩ := Option.map_eq_some_iff.1 h
    have hid : claim.child = id := by simpa using List.find?_some hclaim
    subst hid
    exact ⟨hknown, List.mem_of_find?_eq_some hclaim⟩
  · cases h

/-- A claim is in order iff what it names is known and owned by who claims
it. -/
theorem claimIssue?_eq_none {claim : Claim} (h : claim ∈ o.claims) :
    o.claimIssue? claim = none ↔
      o.isKnown claim.child = true ∧ o.owner? claim.child
        = some claim.owner := by
  unfold claimIssue?
  by_cases hknown : o.isKnown claim.child = true
  · obtain ⟨first, hfirst⟩ := exists_owner? h hknown
    rw [if_pos hknown, hfirst]
    by_cases heq : first = claim.owner <;> simp [hknown, heq]
  · simp [hknown]

end Ownership

end IntentGraph
