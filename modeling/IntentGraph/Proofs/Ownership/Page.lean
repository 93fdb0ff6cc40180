import IntentGraph.Proofs.Ownership
import Mathlib.Data.List.Count

/-!
# Cycles and pages of components

What climbs are asked for: which components are on a cycle of owners, and which
page a component ends up on.

* The check names the components on a cycle, each once, and no others
  (`Ownership.mem_issues_cycle`, `Ownership.count_cycle_le`).
* A component ends up on the page of the topmost component above it
  (`View.pageOf?_of_tops`), and so on the page of its owner; all that is left is
  a component on a cycle, which names its page itself.
-/

namespace IntentGraph

open Relation

/-! ## Issues with cycles -/

namespace Ownership

variable {o : Ownership} {id : String}

/-- What is wrong with a claim is never a cycle. -/
theorem not_mem_claimIssues_cycle :
    .cycle id ∉ o.claims.filterMap o.claimIssue? := by
  rw [List.mem_filterMap]
  rintro ⟨claim, _, h⟩
  rw [claimIssue?] at h
  split at h
  · split at h
    · split at h <;> cases h
    · cases h
  · cases h

theorem mem_issues_cycle : .cycle id ∈ o.issues ↔ TransGen o.Above id id := by
  rw [issues, List.mem_append,
    or_iff_right not_mem_claimIssues_cycle, ← mem_cyclic]
  simp

theorem count_cycle_le : o.issues.count (.cycle id) ≤ 1 := by
  have hinjective : Function.Injective OwnershipIssue.cycle :=
    fun _ _ h => by cases h; rfl
  rw [issues, List.count_append,
    List.count_eq_zero.2 not_mem_claimIssues_cycle, Nat.zero_add,
    List.count_map_of_injective _ _ hinjective]
  exact List.nodup_iff_count_le_one.1 (nodup_distinctBy_id _) id

/-! ## Pages -/

/-- The page that owns a component. -/
def owningPage? (o : Ownership) (id : String) : Option String :=
  match o.owner? id with
  | some (.page page) => some page
  | _ => none

theorem pageOf?_congr {id' : String} (hknown : o.isKnown id = true)
    (hknown' : o.isKnown id' = true) (hclimb : o.climb id = o.climb id') :
    o.pageOf? id = o.pageOf? id' := by
  rw [pageOf?, pageOf?, if_pos hknown, if_pos hknown', hclimb]

theorem pageOf?_eq_none (h : ¬ o.isKnown id = true) : o.pageOf? id = none := by
  rw [pageOf?, if_neg h]

/-- What no component owns is on the page that owns it, or else on its own. -/
theorem pageOf?_of_free (hknown : o.isKnown id = true)
    (hfree : ∀ parent, ¬ o.Above parent id) :
    o.pageOf? id
      = (o.owningPage? id).or ((o.component? id).bind (·.pageId)) := by
  rw [pageOf?, if_pos hknown, climb, ascend, if_neg (by simp), owningPage?]
  cases howner : o.owner? id with
  | none => simp
  | some owner =>
    cases owner with
    | page page => simp
    | component parent => exact absurd howner (hfree parent)

end Ownership

namespace View

variable {v : View}

/-- What owns a component is a component of the view. -/
theorem isKnown_of_above {parent child : String}
    (h : (Ownership.ofView v).Above parent child) :
    (Ownership.ofView v).isKnown parent = true := by
  obtain ⟨p, _, howner, _⟩ | ⟨c, hc, howner, _⟩ :=
    Ownership.mem_claims_ofView.1 (Ownership.of_owner? h).2
  · cases howner
  · cases howner
    exact Ownership.isKnown_ofView.2 ⟨c, hc, rfl⟩

/-- The topmost component above a component of the view is one too. -/
theorem isKnown_of_tops {top id : String} (h : (Ownership.ofView v).Tops top id)
    (hknown : (Ownership.ofView v).isKnown id = true) :
    (Ownership.ofView v).isKnown top = true := by
  rcases ReflTransGen.cases_head h.above with rfl | ⟨child, habove, _⟩
  · exact hknown
  · exact isKnown_of_above habove

/-- A component is on the page of the topmost component above it. -/
theorem pageOf?_of_tops {c t : Component} (hc : c ∈ v.components)
    (ht : t ∈ v.components) (htops : (Ownership.ofView v).Tops t.id c.id) :
    (Ownership.ofView v).pageOf? c.id
      = ((Ownership.ofView v).owningPage? t.id).or t.pageId := by
  have hknown := Ownership.isKnown_ofView.2 ⟨t, ht, rfl⟩
  rw [Ownership.pageOf?_congr (Ownership.isKnown_ofView.2 ⟨c, hc, rfl⟩) hknown
    htops.climb_eq, Ownership.pageOf?_of_free hknown htops.free,
    Ownership.component?_ofView ht, Option.bind_some]

/-- A component on a cycle is on its own page. -/
theorem pageOf?_of_cycle {c : Component} (hc : c ∈ v.components)
    (hcycle : TransGen (Ownership.ofView v).Above c.id c.id) :
    (Ownership.ofView v).pageOf? c.id = c.pageId := by
  rw [Ownership.pageOf?, if_pos (Ownership.isKnown_ofView.2 ⟨c, hc, rfl⟩),
    Ownership.climb_of_cycle hcycle]
  change ((Ownership.ofView v).component? c.id).bind (·.pageId) = c.pageId
  rw [Ownership.component?_ofView hc, Option.bind_some]

/-- Off the cycles a component and the one that owns it are on the same page. -/
theorem pageOf?_of_above {parent child : String}
    (h : (Ownership.ofView v).Above parent child)
    (hoff : ¬ TransGen (Ownership.ofView v).Above child child) :
    (Ownership.ofView v).pageOf? child = (Ownership.ofView v).pageOf? parent :=
  Ownership.pageOf?_congr (Ownership.of_owner? h).1 (isKnown_of_above h)
    (Ownership.climb_of_above h hoff)

/-- The check names the components on a cycle of owners and no others, each
once. Every climb comes to an end, whatever is claimed. Without a cycle above it
a component has a topmost component, and it is on the page that owns that one,
or else on that one's own. So a component is on the page of the component that
owns it; only on a cycle, where there is none topmost, is it on its own. -/
theorem ascents_exact (m : Mutation) (prior : Option Snapshot) :
    let v : View := ⟨m, prior⟩
    let o := Ownership.ofView v
    (∀ id, (.cycle id ∈ o.issues ↔ TransGen o.Above id id)
      ∧ o.issues.count (.cycle id) ≤ 1)
    ∧ (∀ id result, o.Ascends [] id result ↔ result = o.climb id)
    ∧ (∀ id, (∀ c ∈ v.components, c.id ≠ id) → o.pageOf? id = none)
    ∧ (∀ c ∈ v.components,
      (∀ x, ReflTransGen o.Above x c.id → ¬ TransGen o.Above x x) →
        ∃ t ∈ v.components, o.Tops t.id c.id)
    ∧ (∀ c ∈ v.components, ∀ t ∈ v.components, o.Tops t.id c.id →
        o.pageOf? c.id = (o.owningPage? t.id).or t.pageId)
    ∧ (∀ parent child, o.Above parent child → ¬ TransGen o.Above child child →
        o.pageOf? child = o.pageOf? parent)
    ∧ ∀ c ∈ v.components, TransGen o.Above c.id c.id →
      o.pageOf? c.id = c.pageId := by
  intro v o
  refine ⟨fun id => ⟨Ownership.mem_issues_cycle, Ownership.count_cycle_le⟩,
    fun id result => Ownership.ascends_iff, fun id hunknown => ?_,
    fun c hc hacyclic => ?_, fun c hc t ht => pageOf?_of_tops hc ht,
    fun parent child => pageOf?_of_above, fun c hc => pageOf?_of_cycle hc⟩
  · refine Ownership.pageOf?_eq_none fun hknown => ?_
    obtain ⟨c, hc, hid⟩ := Ownership.isKnown_ofView.1 hknown
    exact hunknown c hc hid
  · -- what is topmost above a component of the view is one of its components
    obtain ⟨top, htops⟩ := Ownership.exists_tops hacyclic
    have hknown :=
      isKnown_of_tops htops (Ownership.isKnown_ofView.2 ⟨c, hc, rfl⟩)
    obtain ⟨t, ht, rfl⟩ := Ownership.isKnown_ofView.1 hknown
    exact ⟨t, ht, htops⟩

/-- A page lists a frame, the frame a card and the card a title. A note names
its page itself. Of two panels each holds the other, and the left one a label
too. -/
def entangled : View where
  mutation := { Mutation.empty with
    pagesAdded := [⟨"home", none, none, ["frame"], []⟩]
    componentsAdded := [
      ⟨"frame", .container, [], none, [], [.named "card"], none⟩,
      ⟨"card", .card, [], none, [], [.named "title"], some "elsewhere"⟩,
      ⟨"title", .text, [], none, [], [], none⟩,
      ⟨"note", .text, [], none, [], [], some "notes"⟩,
      ⟨"left", .container, [], none, [],
        [.named "right", .named "label"], some "west"⟩,
      ⟨"right", .container, [], none, [], [.named "left"], some "east"⟩,
      ⟨"label", .text, [], none, [], [], none⟩] }
  prior := none

/-- Both panels are named as cycles, and the label is not; it is on the page of
the left panel, which names it itself. The title is on the page that lists the
frame, and so is the card, whatever page it names. -/
theorem ascents_exact_entangled :
    let o := Ownership.ofView entangled
    (.cycle "left" ∈ o.issues ∧ .cycle "right" ∈ o.issues
      ∧ .cycle "label" ∉ o.issues)
      ∧ o.pageOf? "missing" = none
      ∧ (∃ t ∈ entangled.components, o.Tops t.id "title")
      ∧ (o.pageOf? "title" = some "home" ∧ o.pageOf? "title" = o.pageOf? "card")
      ∧ (o.pageOf? "label" = o.pageOf? "left" ∧ o.pageOf? "left" = some "west"
        ∧ o.pageOf? "right" = some "east") := by
  intro o
  obtain ⟨hcycles, _, hunknown, hexists, hpage, howner, hcycle⟩ :=
    ascents_exact entangled.mutation entangled.prior
  -- whether a component is on a cycle is decided by climbing from it
  have hloop : ∀ id, id ∈ o.cyclic → TransGen o.Above id id :=
    fun _ => Ownership.mem_cyclic.1
  have hfree : ∀ id, id ∉ o.cyclic → ¬ TransGen o.Above id id :=
    fun _ h h' => h (Ownership.mem_cyclic.2 h')
  have hleft := hloop "left" (by decide +kernel)
  have hright := hloop "right" (by decide +kernel)
  have hlabel := hfree "label" (by decide +kernel)
  have hcard : o.Above "card" "title" :=
    show o.owner? "title" = _ by decide +kernel
  have hframe : o.Above "frame" "card" :=
    show o.owner? "card" = _ by decide +kernel
  have hpanel : o.Above "left" "label" :=
    show o.owner? "label" = _ by decide +kernel
  have htops : o.Tops "frame" "title" := by
    refine ⟨.tail (.single hframe) hcard, fun parent habove => ?_⟩
    have howned : o.owner? "frame" = some (.page "home") := by decide +kernel
    cases howned.symm.trans habove
  refine ⟨⟨(hcycles _).1.2 hleft, (hcycles _).1.2 hright,
      fun h => hlabel ((hcycles _).1.1 h)⟩,
    hunknown "missing" (by decide +kernel), ?_,
    ⟨?_, howner "card" "title" hcard (hfree _ (by decide +kernel))⟩,
    howner "left" "label" hpanel hlabel, ?_, ?_⟩
  · refine hexists ⟨"title", .text, [], none, [], [], none⟩ (by decide +kernel)
      fun x hto hx => ?_
    obtain ⟨y, hy⟩ := Ownership.exists_climb_eq_revisited hto hx
    have hclimb : o.climb "title" = .page "home" := by decide +kernel
    cases hclimb.symm.trans hy
  · exact (hpage ⟨"title", .text, [], none, [], [], none⟩ (by decide +kernel)
      ⟨"frame", .container, [], none, [], [.named "card"], none⟩
      (by decide +kernel) htops).trans
        (by decide +kernel)
  · exact hcycle ⟨"left", .container, [], none, [],
      [.named "right", .named "label"], some "west"⟩ (by decide +kernel) hleft
  · exact hcycle ⟨"right", .container, [], none, [],
      [.named "left"], some "east"⟩ (by decide +kernel) hright

end View

end IntentGraph
