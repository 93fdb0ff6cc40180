import IntentGraph.Normalization
import IntentGraph.Proofs.View

/-!
# Standards for the parts of a document

Normalization treats the mutation and the snapshot alike, part by part. A
`Standard` asks something of every action, component, page and state map of a
document, and `IntentDocument.Meets` says that all of them are up to it. A
revision that brings each part from one standard to another brings a document
there (`IntentDocument.Meets.onDocument`).
-/

namespace IntentGraph

/-! ## The parts -/

namespace IntentDocument

/-- The actions of the mutation and those of the snapshot. -/
def allActions (d : IntentDocument) : List Action :=
  d.mutation.actions ++ (d.prior.map (·.actions)).getD []

/-- The components of the mutation and those of the snapshot. -/
def allComponents (d : IntentDocument) : List Component :=
  d.mutation.components ++ (d.prior.map (·.components)).getD []

/-- The pages of the mutation and those of the snapshot. -/
def allPages (d : IntentDocument) : List Page :=
  d.mutation.pages ++ (d.prior.map (·.pages)).getD []

/-- The state maps of the mutation and that of the snapshot. -/
def allStates (d : IntentDocument) : List Fields :=
  [d.mutation.stateAdded, d.mutation.stateUpdated]
    ++ (d.prior.map (·.state)).toList

variable (r : Revision) (d : IntentDocument)

theorem allActions_onDocument :
    (r.onDocument d).allActions = d.allActions.map r.action := by
  unfold allActions Revision.onDocument
  cases d.prior
    <;> simp [Revision.onMutation, Revision.onSnapshot, Mutation.actions]

theorem allComponents_onDocument :
    (r.onDocument d).allComponents = d.allComponents.map r.component := by
  unfold allComponents Revision.onDocument
  cases d.prior
    <;> simp [Revision.onMutation, Revision.onSnapshot, Mutation.components]

theorem allPages_onDocument :
    (r.onDocument d).allPages = d.allPages.map r.page := by
  unfold allPages Revision.onDocument
  cases d.prior
    <;> simp [Revision.onMutation, Revision.onSnapshot, Mutation.pages]

theorem allStates_onDocument :
    (r.onDocument d).allStates = d.allStates.map r.state := by
  unfold allStates Revision.onDocument
  cases d.prior <;> simp [Revision.onMutation, Revision.onSnapshot]

end IntentDocument

/-! ## Standards -/

/-- What is asked of each part of a document. -/
structure Standard where
  action : Action → Prop
  component : Component → Prop
  page : Page → Prop
  state : Fields → Prop

/-- Every part of a document is up to a standard. -/
structure IntentDocument.Meets (s : Standard) (d : IntentDocument) : Prop where
  action : ∀ a ∈ d.allActions, s.action a
  component : ∀ c ∈ d.allComponents, s.component c
  page : ∀ p ∈ d.allPages, s.page p
  state : ∀ fields ∈ d.allStates, s.state fields

/-- A revision brings whatever meets one standard to another. -/
structure Revision.Brings (r : Revision) (s s' : Standard) : Prop where
  action : ∀ a, s.action a → s'.action (r.action a)
  component : ∀ c, s.component c → s'.component (r.component c)
  page : ∀ p, s.page p → s'.page (r.page p)
  state : ∀ fields, s.state fields → s'.state (r.state fields)

/-- A revision leaves whatever meets a standard alone. -/
structure Revision.Spares (r : Revision) (s : Standard) : Prop where
  action : ∀ a, s.action a → r.action a = a
  component : ∀ c, s.component c → r.component c = c
  page : ∀ p, s.page p → r.page p = p
  state : ∀ fields, s.state fields → r.state fields = fields

theorem map_eq_self {α : Type} {f : α → α} {xs : List α}
    (h : ∀ x ∈ xs, f x = x) :
    xs.map f = xs := (List.map_congr_left h).trans (List.map_id xs)

namespace IntentDocument

variable {s s' : Standard} {r : Revision} {d : IntentDocument}

theorem Meets.onDocument (h : d.Meets s) (hr : r.Brings s s') :
    (r.onDocument d).Meets s' where
  action := by
    rw [allActions_onDocument]
    exact List.forall_mem_map.2 fun a ha => hr.action a (h.action a ha)
  component := by
    rw [allComponents_onDocument]
    exact List.forall_mem_map.2 fun c hc => hr.component c (h.component c hc)
  page := by
    rw [allPages_onDocument]
    exact List.forall_mem_map.2 fun p hp => hr.page p (h.page p hp)
  state := by
    rw [allStates_onDocument]
    exact List.forall_mem_map.2 fun fields hfields =>
      hr.state fields (h.state fields hfields)

/-- A revision that has nothing to do leaves a document as it is. -/
theorem Meets.onDocument_eq (h : d.Meets s) (hr : r.Spares s) :
    r.onDocument d = d := by
  have haction : ∀ a ∈ d.allActions, r.action a = a :=
    fun a ha => hr.action a (h.action a ha)
  have hcomponent : ∀ c ∈ d.allComponents, r.component c = c :=
    fun c hc => hr.component c (h.component c hc)
  have hpage : ∀ p ∈ d.allPages, r.page p = p :=
    fun p hp => hr.page p (h.page p hp)
  have hstate : ∀ f ∈ d.allStates, r.state f = f :=
    fun f hf => hr.state f (h.state f hf)
  simp only [allActions, Mutation.actions, List.forall_mem_append] at haction
  simp only [allComponents, Mutation.components,
    List.forall_mem_append] at hcomponent
  simp only [allPages, Mutation.pages, List.forall_mem_append] at hpage
  simp only [allStates, List.forall_mem_append, List.forall_mem_cons] at hstate
  have hmutation : r.onMutation d.mutation = d.mutation := by
    rw [Revision.onMutation, map_eq_self haction.1.1, map_eq_self haction.1.2,
      map_eq_self hcomponent.1.1, map_eq_self hcomponent.1.2,
      map_eq_self hpage.1.1, map_eq_self hpage.1.2, hstate.1.1, hstate.1.2.1]
  have hprior : d.prior.map r.onSnapshot = d.prior := by
    cases hd : d.prior with
    | none => rfl
    | some snapshot =>
      simp only [hd, Option.map_some,
        Option.getD_some] at haction hcomponent hpage
      simp only [hd, Option.map_some, Option.toList_some,
        List.forall_mem_singleton] at hstate
      rw [Option.map_some, Revision.onSnapshot, map_eq_self haction.2,
        map_eq_self hcomponent.2, map_eq_self hpage.2, hstate.2]
  rw [Revision.onDocument, hmutation, hprior]

end IntentDocument

end IntentGraph
