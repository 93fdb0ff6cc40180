import IntentGraph.Proofs.Ownership.Claim
import Mathlib.Logic.Relation

/-!
# Climbs from owner to owner

A component has one owner at most, so the components above it form one way up,
which ends at a page, ends at a component without owner, or runs into a cycle.
`Ownership.Ascends` is a climb along it without any bound; it comes to an end in
just one way, and that is where `Ownership.climb` ends
(`Ownership.ascends_iff`), since as many steps as there are components, and one
more, cannot all be new.

* A climb meets a component again only on a cycle
  (`Ownership.Ascends.transGen`), and one that begins on a cycle first meets
  again where it began (`Ownership.climb_of_cycle`). So the components that
  climbs meet again are those on a cycle: `Ownership.mem_cyclic`.
* Off the cycles a component climbs to where its owner climbs to
  (`Ownership.climb_of_above`), and so to where the topmost component above it
  does (`Ownership.Tops.climb_eq`).
-/

namespace IntentGraph.Ownership

open Relation

variable {o : Ownership} {seen : List String} {id : String} {result : Ascent}

/-! ## Climbs without a bound -/

/-- One step of a climb: the component that owns a component. -/
def Above (o : Ownership) (parent child : String) : Prop :=
  o.owner? child = some (.component parent)

theorem Above.unique {parent parent' : String} (h : o.Above parent id)
    (h' : o.Above parent' id) :
    parent = parent' := by
  rw [Above] at h h'
  simpa [h] using h'

/-- A climb from a component to its owner and on, past the components seen so
far. -/
inductive Ascends (o : Ownership) : (seen : List String) →
    (id : String) → Ascent → Prop
  | revisited {seen : List String} {id : String} :
    id ∈ seen → Ascends o seen id (.revisited id)
  | page {seen : List String} {id page : String} :
    id ∉ seen → o.owner? id = some (.page page) →
      Ascends o seen id (.page page)
  | component {seen : List String} {id parent : String} {result : Ascent} :
    id ∉ seen → o.Above parent id → Ascends o (id :: seen) parent result →
    Ascends o seen id result
  | top {seen : List String} {id : String} : id ∉ seen → o.owner? id = none →
      Ascends o seen id (.top id)

/-- A climb ends in one way. -/
theorem Ascends.unique {result' : Ascent} (h : o.Ascends seen id result)
    (h' : o.Ascends seen id result') : result = result' := by
  -- on the climb: what it meets first settles which rule applies
  induction h with
  | revisited hseen =>
    cases h' with
    | revisited => rfl
    | page hnew | component hnew | top hnew => exact absurd hseen hnew
  | page hnew howner =>
    cases h' with
    | revisited hseen => exact absurd hseen hnew
    | page _ howner' => simpa [howner] using howner'
    | component _ habove => simp [Above, howner] at habove
    | top _ hnone => simp [howner] at hnone
  | component hnew habove _ ih =>
    cases h' with
    | revisited hseen => exact absurd hseen hnew
    | page _ howner => simp [Above, howner] at habove
    | component _ habove' hrest =>
      cases habove.unique habove'
      exact ih hrest
    | top _ hnone => simp [Above, hnone] at habove
  | top hnew hnone =>
    cases h' with
    | revisited hseen => exact absurd hseen hnew
    | page _ howner => simp [hnone] at howner
    | component _ habove => simp [Above, hnone] at habove
    | top => rfl

/-- With fuel for all components that were not passed, a climb does not run out
of it. -/
theorem ascends_ascend {fuel : Nat} (hnodup : seen.Nodup)
    (hknown : seen ⊆ o.components.map (·.id))
    (hfuel : o.components.length < seen.length + fuel) :
    o.Ascends seen id (o.ascend fuel seen id) := by
  induction fuel generalizing seen id with
  | zero =>
    -- more different components were passed than there are
    have hle := hnodup.length_le_of_subset hknown
    rw [List.length_map] at hle
    omega
  | succ fuel ih =>
    rw [ascend]
    split
    · next hseen => exact .revisited (by simpa using hseen)
    · next hseen =>
      have hnew : id ∉ seen := by simpa using hseen
      split
      · next howner => exact .page hnew howner
      · next howner =>
        refine .component hnew howner
          (ih (List.nodup_cons.2 ⟨hnew, hnodup⟩) ?_ ?_)
        · exact List.cons_subset.2 ⟨isKnown_iff.1 (of_owner? howner).1, hknown⟩
        · rw [List.length_cons]
          omega
      · next howner => exact .top hnew howner

/-- Every climb comes to an end, and ends where the bounded one does. -/
theorem ascends_iff : o.Ascends [] id result ↔ result = o.climb id := by
  have hclimb : o.Ascends [] id (o.climb id) :=
    ascends_ascend List.nodup_nil (List.nil_subset _) (by simp)
  exact ⟨fun h => h.unique hclimb, fun h => h ▸ hclimb⟩

/-- The first step of a climb from a component that a component owns. -/
theorem ascends_of_above {parent : String} (h : o.Above parent id) :
    o.Ascends [id] parent (o.climb id) := by
  have hclimb : o.Ascends [] id (o.climb id) := ascends_iff.2 rfl
  generalize o.climb id = result at hclimb ⊢
  cases hclimb with
  | revisited hseen => cases hseen
  | page _ howner => simp [Above, howner] at h
  | component _ habove hrest => exact habove.unique h ▸ hrest
  | top _ hnone => simp [Above, hnone] at h

/-! ## Cycles -/

/-- A climb that has passed only descendants meets again only what is its own
ancestor. -/
theorem Ascends.transGen {x : String} (h : o.Ascends seen id (.revisited x))
    (hbelow : ∀ y ∈ seen, TransGen o.Above id y) : TransGen o.Above x x := by
  generalize hresult : Ascent.revisited x = result at h
  induction h with
  | revisited hseen =>
    cases hresult
    exact hbelow _ hseen
  | page => cases hresult
  | component _ habove _ ih =>
    refine ih (fun y hy => ?_) hresult
    rcases List.mem_cons.1 hy with rfl | hy
    · exact .single habove
    · exact .head habove (hbelow y hy)
  | top => cases hresult

/-- A climb meets again only what is its own ancestor. -/
theorem transGen_of_climb {x : String} (h : o.climb id = .revisited x) :
    TransGen o.Above x x :=
  (ascends_iff.2 h.symm).transGen fun _ hy => absurd hy List.not_mem_nil

/-- What is above a component on a cycle is on a cycle. -/
theorem transGen_of_reflTransGen {x : String} (h : ReflTransGen o.Above x id)
    (hcycle : TransGen o.Above id id) : TransGen o.Above x x := by
  induction h with
  | refl => exact hcycle
  | tail _ habove ih =>
    obtain ⟨parent, hto, hparent⟩ := TransGen.tail'_iff.1 hcycle
    rw [habove.unique hparent] at ih
    exact ih (.head' hparent hto)

/-- One step of a climb that goes no further than `stop`. -/
def Below (o : Ownership) (stop parent child : String) : Prop :=
  o.Above parent child ∧ child ≠ stop

variable {stop : String}

/-- A way up to `stop` is one that goes no further, once it gets there. -/
theorem below_of_above (h : ReflTransGen o.Above stop id) :
    ReflTransGen (o.Below stop) stop id := by
  induction h with
  | refl => exact .refl
  | @tail parent child _ habove ih =>
    by_cases hstop : child = stop
    · rw [hstop]
    · exact ih.tail ⟨habove, hstop⟩

/-- There is no cycle on a way up to `stop` that goes no further. -/
theorem not_transGen_below (h : ReflTransGen (o.Below stop) stop id) :
    ¬ TransGen (o.Below stop) id id := by
  intro hcycle
  induction h with
  | refl =>
    obtain ⟨_, _, _, hne⟩ := TransGen.tail'_iff.1 hcycle
    exact hne rfl
  | tail _ hstep ih =>
    obtain ⟨parent, hto, hparent⟩ := TransGen.tail'_iff.1 hcycle
    rw [hstep.1.unique hparent.1] at ih
    exact ih (.head' hparent hto)

/-- A climb that has passed `stop`, and besides it only what lies on the way up
to `stop`, meets `stop` before anything else. -/
theorem Ascends.eq_revisited (h : o.Ascends seen id result)
    (hto : ReflTransGen (o.Below stop) stop id) (hstop : stop ∈ seen)
    (hseen : ∀ y ∈ seen, y ≠ stop → TransGen (o.Below stop) id y) :
    result = .revisited stop := by
  induction h with
  | @revisited seen id hmem =>
    by_cases heq : id = stop
    · rw [heq]
    · exact absurd (hseen id hmem heq) (not_transGen_below hto)
  | page hnew howner =>
    rcases ReflTransGen.cases_tail hto with rfl | ⟨parent, _, habove, _⟩
    · exact absurd hstop hnew
    · simp [Above, howner] at habove
  | component hnew habove _ ih =>
    rcases ReflTransGen.cases_tail hto with rfl | ⟨parent, hto, hstep⟩
    · exact absurd hstop hnew
    · -- one step up: what was passed is now passed by the owner as well
      obtain rfl := habove.unique hstep.1
      refine ih hto (List.mem_cons_of_mem _ hstop) fun y hy hne => ?_
      rcases List.mem_cons.1 hy with rfl | hy
      · exact .single hstep
      · exact .head hstep (hseen y hy hne)
  | top hnew hnone =>
    rcases ReflTransGen.cases_tail hto with rfl | ⟨parent, _, habove, _⟩
    · exact absurd hstop hnew
    · simp [Above, hnone] at habove

/-- A climb from a cycle goes round it once. -/
theorem climb_of_cycle (h : TransGen o.Above id id) :
    o.climb id = .revisited id := by
  obtain ⟨parent, hto, hparent⟩ := TransGen.tail'_iff.1 h
  refine (ascends_of_above hparent).eq_revisited (below_of_above hto)
    List.mem_cons_self ?_
  exact fun y hy hne => absurd (List.mem_singleton.1 hy) hne

/-- The components that climbs meet again are those on a cycle. -/
theorem mem_cyclic : id ∈ o.cyclic ↔ TransGen o.Above id id := by
  rw [cyclic, mem_distinctBy_id, List.mem_filterMap]
  constructor
  · rintro ⟨c, _, hc⟩
    split at hc
    · next hclimb =>
      cases hc
      exact transGen_of_climb hclimb
    · cases hc
  · intro h
    obtain ⟨parent, _, hparent⟩ := TransGen.tail'_iff.1 h
    obtain ⟨c, hc, rfl⟩ := List.mem_map.1 (isKnown_iff.1 (of_owner? hparent).1)
    exact ⟨c, hc, by rw [climb_of_cycle h]⟩

theorem cyclic_eq_nil : o.cyclic = [] ↔ ∀ x, ¬ TransGen o.Above x x := by
  simp only [List.eq_nil_iff_forall_not_mem, mem_cyclic]

/-! ## Off the cycles -/

/-- What was seen and does not lie above makes no difference to a climb. -/
theorem Ascends.of_subset {seen' : List String} (h : o.Ascends seen id result)
    (hsub : seen' ⊆ seen)
    (hnever : ∀ y ∈ seen, y ∉ seen' → ¬ ReflTransGen o.Above y id) :
    o.Ascends seen' id result := by
  induction h generalizing seen' with
  | @revisited seen id hseen =>
    by_contra hnot
    exact hnever id hseen (fun hmem => hnot (.revisited hmem)) .refl
  | page hnew howner => exact .page (fun hmem => hnew (hsub hmem)) howner
  | component hnew habove _ ih =>
    refine .component (fun hmem => hnew (hsub hmem)) habove
      (ih (List.cons_subset_cons _ hsub) fun y hy hy' hto => ?_)
    rw [List.mem_cons, not_or] at hy'
    exact hnever y ((List.mem_cons.1 hy).resolve_left hy'.1) hy'.2
      (hto.tail habove)
  | top hnew hnone => exact .top (fun hmem => hnew (hsub hmem)) hnone

/-- A component that is on no cycle climbs to where its owner climbs to. -/
theorem climb_of_above {parent : String} (h : o.Above parent id)
    (hoff : ¬ TransGen o.Above id id) : o.climb id = o.climb parent := by
  refine ascends_iff.1
    ((ascends_of_above h).of_subset (List.nil_subset _) fun y hy _ hto => ?_)
  obtain rfl := List.mem_singleton.1 hy
  exact hoff (.tail' hto h)

/-- Below a cycle every climb meets something again. -/
theorem exists_climb_eq_revisited {x : String} (h : ReflTransGen o.Above x id)
    (hcycle : TransGen o.Above x x) : ∃ y, o.climb id = .revisited y := by
  induction h with
  | refl => exact ⟨x, climb_of_cycle hcycle⟩
  | @tail parent child _ habove ih =>
    by_cases hchild : TransGen o.Above child child
    · exact ⟨child, climb_of_cycle hchild⟩
    · rwa [climb_of_above habove hchild]

/-- The component, or one above it, that no component owns. -/
structure Tops (o : Ownership) (top id : String) : Prop where
  above : ReflTransGen o.Above top id
  free : ∀ parent, ¬ o.Above parent top

/-- A climb that meets nothing again comes by a topmost component. -/
theorem Ascends.exists_tops (h : o.Ascends seen id result) :
    (∃ x, result = .revisited x ∧ ReflTransGen o.Above x id)
      ∨ ∃ top, o.Tops top id := by
  induction h with
  | revisited => exact .inl ⟨_, rfl, .refl⟩
  | page _ howner =>
    exact .inr ⟨_, .refl,
      fun parent habove => by simp [Above, howner] at habove⟩
  | component _ habove _ ih =>
    rcases ih with ⟨x, hx, hto⟩ | ⟨top, hto, hfree⟩
    · exact .inl ⟨x, hx, hto.tail habove⟩
    · exact .inr ⟨top, hto.tail habove, hfree⟩
  | top _ hnone =>
    exact .inr ⟨_, .refl, fun parent habove => by simp [Above, hnone] at habove⟩

/-- Without a cycle above it a component has a topmost component. -/
theorem exists_tops
    (hacyclic : ∀ x, ReflTransGen o.Above x id → ¬ TransGen o.Above x x) :
    ∃ top, o.Tops top id := by
  have hclimb : o.Ascends [] id (o.climb id) := ascends_iff.2 rfl
  rcases hclimb.exists_tops with ⟨x, hx, hto⟩ | htops
  · exact absurd (transGen_of_climb hx) (hacyclic x hto)
  · exact htops

/-- A component climbs to where the topmost component above it climbs to. -/
theorem Tops.climb_eq {top : String} (h : o.Tops top id) :
    o.climb id = o.climb top := by
  obtain ⟨hto, hfree⟩ := h
  induction hto with
  | refl => rfl
  | @tail parent child hto habove ih =>
    -- on a cycle, the topmost component would be on one too
    have hoff : ¬ TransGen o.Above child child := by
      intro hcycle
      obtain ⟨above, _, hparent⟩ :=
        TransGen.tail'_iff.1 (transGen_of_reflTransGen (hto.tail habove) hcycle)
      exact hfree above hparent
    rw [climb_of_above habove hoff, ih]

end IntentGraph.Ownership
