import IntentGraph.Proofs.Related
import IntentGraph.Proofs.Repair.Removal

/-!
# Binding of orphans as rewiring

Carrying out bindings adds triggers to the bound actions and events to pages,
and carries a page of the snapshot into the mutation when it is wired.
`View.Rewires` says just that of two views: it is reflexive and transitive,
every single binding is an instance (`View.rewires_bind`), and so is a run of
bindings (`View.rewires_bindAll`).

* `View.Rewires.keepsRunning`: rewiring takes away nothing that makes an action
  run;
* `View.mem_roots_bindAll`: after a run of bindings, every action that was bound
  is a root.
-/

namespace IntentGraph

/-! ## Changing the first element that fits -/

section modifyFirst

variable {α : Type} {fits : α → Bool} {f : α → α} {xs ys : List α}

theorem modifyFirst?_eq_none :
    Mutation.modifyFirst? fits f xs = none ↔ xs.find? fits = none := by
  induction xs with
  | nil => simp [Mutation.modifyFirst?]
  | cons x rest ih =>
    rw [Mutation.modifyFirst?, List.find?_cons]
    cases hx : fits x with
    | true => simp
    | false => simp [ih]

/-- A list and the list with one element changed are related element by
element. -/
theorem forall₂_modifyFirst? {R : α → α → Prop} (refl : ∀ x, R x x)
    (step : ∀ x, fits x = true → R x (f x))
    (h : Mutation.modifyFirst? fits f xs = some ys) :
    List.Forall₂ R xs ys := by
  induction xs generalizing ys with
  | nil => cases h
  | cons x rest ih =>
    rw [Mutation.modifyFirst?] at h
    split at h
    · next hx =>
      cases h
      exact .cons (step x hx) (List.forall₂_same.2 fun y _ => refl y)
    · obtain ⟨zs, hzs, rfl⟩ := Option.map_eq_some_iff.1 h
      exact .cons (refl x) (ih hzs)

theorem map_key_modifyFirst? {β : Type} {key : α → β}
    (keeps : ∀ x, key (f x) = key x)
    (h : Mutation.modifyFirst? fits f xs = some ys) : ys.map key = xs.map key :=
  map_key_of_forall₂ (fun _ _ heq => heq)
    (forall₂_modifyFirst? (R := fun x y => key y = key x) (fun _ => rfl)
      (fun x _ => keeps x) h)

/-- The first element that fits is the changed one. -/
theorem find?_modifyFirst? (keeps : ∀ x, fits (f x) = fits x)
    (h : Mutation.modifyFirst? fits f xs = some ys) :
    ys.find? fits = (xs.find? fits).map f := by
  induction xs generalizing ys with
  | nil => cases h
  | cons x rest ih =>
    rw [Mutation.modifyFirst?] at h
    split at h
    · next hx =>
      cases h
      simp [keeps, hx]
    · next hx =>
      obtain ⟨zs, hzs, rfl⟩ := Option.map_eq_some_iff.1 h
      simp [hx, ih hzs]

/-- Where a change of the element with one key keeps keys, other keys stand for
what they stood for. -/
theorem find?_modifyFirst?_of_ne {key : α → String} {j k : String}
    (keeps : ∀ x, key (f x) = key x) (hne : j ≠ k)
    (h : Mutation.modifyFirst? (key · == k) f xs = some ys) :
    ys.find? (key · == j) = xs.find? (key · == j) := by
  induction xs generalizing ys with
  | nil => cases h
  | cons x rest ih =>
    rw [Mutation.modifyFirst?] at h
    split at h
    · next hx =>
      cases h
      have hxj : (key x == j) = false := by
        rw [eq_of_beq hx]
        simpa using hne.symm
      rw [List.find?_cons, List.find?_cons, keeps, hxj]
    · obtain ⟨zs, hzs, rfl⟩ := Option.map_eq_some_iff.1 h
      rw [List.find?_cons, List.find?_cons, ih hzs]

/-- A change of two lists read as one changes the first of them if it can. -/
theorem modifyFirst?_append :
    Mutation.modifyFirst? fits f (xs ++ ys)
      = match Mutation.modifyFirst? fits f xs with
        | some xs' => some (xs' ++ ys)
        | none => (Mutation.modifyFirst? fits f ys).map (xs ++ ·) := by
  induction xs with
  | nil => simp [Mutation.modifyFirst?]
  | cons x rest ih =>
    simp only [List.cons_append, Mutation.modifyFirst?]
    by_cases hx : fits x = true
    · simp [hx]
    · rw [if_neg hx, if_neg hx, ih]
      cases Mutation.modifyFirst? fits f rest with
      | none => simp [Function.comp_def]
      | some rest' => simp

end modifyFirst

namespace Mutation

variable {m m' : Mutation} {id : String}

/-- The change of an action as a change of all actions. -/
theorem actions_modifyAction? (m : Mutation) (id : String)
    (f : Action → Action) :
    (m.modifyAction? id f).map actions
      = modifyFirst? (·.id == id) f m.actions := by
  rw [actions, modifyFirst?_append, modifyAction?]
  cases modifyFirst? (·.id == id) f m.actionsAdded with
  | some added => rfl
  | none => cases modifyFirst? (·.id == id) f m.actionsUpdated <;> rfl

/-- The change of a page as a change of all pages. -/
theorem pages_modifyPage? (m : Mutation) (id : String) (f : Page → Page) :
    (m.modifyPage? id f).map pages = modifyFirst? (·.id == id) f m.pages := by
  rw [pages, modifyFirst?_append, modifyPage?]
  cases modifyFirst? (·.id == id) f m.pagesAdded with
  | some added => rfl
  | none => cases modifyFirst? (·.id == id) f m.pagesUpdated <;> rfl

/-- A change of a page is one of an added page or one of an updated page. -/
theorem modifyPage?_eq_some {f : Page → Page}
    (h : m.modifyPage? id f = some m') :
    (∃ added, modifyFirst? (·.id == id) f m.pagesAdded = some added
      ∧ m' = { m with pagesAdded := added })
    ∨ ∃ updated, modifyFirst? (·.id == id) f m.pagesUpdated = some updated
      ∧ m' = { m with pagesUpdated := updated } := by
  rw [modifyPage?] at h
  split at h
  · next added hadded =>
    cases h
    exact .inl ⟨added, hadded, rfl⟩
  · obtain ⟨updated, hupdated, rfl⟩ := Option.map_eq_some_iff.1 h
    exact .inr ⟨updated, hupdated, rfl⟩

/-- Only pages differ. -/
theorem frame_modifyPage? {f : Page → Page} (h : m.modifyPage? id f = some m') :
    m'.actionsAdded = m.actionsAdded ∧ m'.actionsUpdated = m.actionsUpdated
      ∧ m'.components = m.components := by
  rcases modifyPage?_eq_some h with ⟨_, _, rfl⟩ | ⟨_, _, rfl⟩
    <;> exact ⟨rfl, rfl, rfl⟩

/-- Without a page of an id in the mutation there is none to change. -/
theorem page?_eq_none_of_modifyPage? {f : Page → Page}
    (h : m.modifyPage? id f = none) :
    m.page? id = none := by
  have hpages := pages_modifyPage? m id f
  rw [h] at hpages
  exact modifyFirst?_eq_none.1 hpages.symm

/-- A page that is changed was there. -/
theorem page?_modifyPage? {page : String} {f : Page → Page}
    (keeps : ∀ p, (f p).id = p.id) (h : m.modifyPage? page f = some m') :
    ∃ p, m.page? page = some p ∧ m'.page? page = some (f p) := by
  have hpages := pages_modifyPage? m page f
  rw [h] at hpages
  have hfound : m'.page? page = (m.page? page).map f :=
    find?_modifyFirst? (fun p => by rw [keeps]) hpages.symm
  cases hp : m.page? page with
  | none =>
    rw [modifyFirst?_eq_none.2 hp] at hpages
    cases hpages
  | some p => exact ⟨p, rfl, by rw [hfound, hp]; rfl⟩

theorem page?_modifyPage?_of_ne {page q : String} {f : Page → Page}
    (keeps : ∀ p, (f p).id = p.id) (hne : q ≠ page)
    (h : m.modifyPage? page f = some m') :
    m'.page? q = m.page? q := by
  have hpages := pages_modifyPage? m page f
  rw [h] at hpages
  exact find?_modifyFirst?_of_ne keeps hne hpages.symm

/-- An action that there is is changed. -/
theorem action?_modifyAction? {f : Action → Action} {a : Action}
    (keeps : ∀ a, (f a).id = a.id) (ha : m.action? id = some a) :
    ∃ m', m.modifyAction? id f = some m' ∧ m'.action? id = some (f a) := by
  have hactions := actions_modifyAction? m id f
  cases h : m.modifyAction? id f with
  | none =>
    rw [h] at hactions
    have hnone : m.action? id = none := modifyFirst?_eq_none.1 hactions.symm
    rw [ha] at hnone
    cases hnone
  | some m' =>
    rw [h] at hactions
    have hfound : m'.action? id = (m.action? id).map f :=
      find?_modifyFirst? (fun a => by rw [keeps]) hactions.symm
    exact ⟨m', rfl, by rw [hfound, ha]; rfl⟩

end Mutation

/-! ## What bindings change -/

/-- The action with recognized triggers added if its id is among some ids, or
else as it was. -/
def Action.Retriggered (ids : List String) (a a' : Action) : Prop :=
  ∃ triggers, a' = { a with triggeredBy := a.triggeredBy ++ triggers }
    ∧ (∀ t ∈ triggers, t.raw? = none) ∧ (a.id ∉ ids → triggers = [])

/-- The page with loads added that run actions of some ids. -/
def Page.Rewired (ids : List String) (p p' : Page) : Prop :=
  ∃ events, p' = { p with events := p.events ++ events }
    ∧ ∀ e ∈ events, e.kind = Lifecycle.pageLoad ∧ e.actionId ∈ ids

namespace Action

variable {ids : List String} {a b c : Action}

theorem Retriggered.refl (ids : List String) (a : Action) :
    Retriggered ids a a :=
  ⟨[], by simp, by simp, fun _ => rfl⟩

theorem Retriggered.id_eq (h : Retriggered ids a b) : b.id = a.id := by
  obtain ⟨_, rfl, _⟩ := h
  rfl

theorem Retriggered.subset (h : Retriggered ids a b) :
    a.triggeredBy ⊆ b.triggeredBy := by
  obtain ⟨triggers, rfl, _⟩ := h
  exact List.subset_append_left _ _

theorem Retriggered.trans (h : Retriggered ids a b) (h' : Retriggered ids b c) :
    Retriggered ids a c := by
  obtain ⟨triggers, rfl, hknown, hnone⟩ := h
  obtain ⟨triggers', rfl, hknown', hnone'⟩ := h'
  refine ⟨triggers ++ triggers', by simp, fun t ht => ?_, fun hid => ?_⟩
  · exact (List.mem_append.1 ht).elim (hknown t) (hknown' t)
  · rw [hnone hid, hnone' hid]
    rfl

theorem Retriggered.mono {ids' : List String} (h : Retriggered ids a b)
    (hsub : ids ⊆ ids') :
    Retriggered ids' a b := by
  obtain ⟨triggers, rfl, hknown, hnone⟩ := h
  exact ⟨triggers, rfl, hknown, fun hid => hnone fun hmem => hid (hsub hmem)⟩

theorem id_addTrigger (t : Trigger) (a : Action) :
    (a.addTrigger t).id = a.id := by
  rw [addTrigger]
  split <;> rfl

theorem mem_addTrigger (t : Trigger) (a : Action) :
    t ∈ (a.addTrigger t).triggeredBy := by
  rw [addTrigger]
  split
  · next h => simpa using h
  · simp

theorem retriggered_addTrigger {t : Trigger} (ht : t.raw? = none)
    (hid : a.id ∈ ids) :
    Retriggered ids a (a.addTrigger t) := by
  rw [addTrigger]
  split
  · exact .refl ids a
  · exact ⟨[t], rfl, by simpa using ht, fun h => absurd hid h⟩

end Action

namespace Page

variable {ids : List String} {p q r : Page}

theorem Rewired.refl (ids : List String) (p : Page) : Rewired ids p p :=
  ⟨[], by simp, by simp⟩

theorem Rewired.id_eq (h : Rewired ids p q) : q.id = p.id := by
  obtain ⟨_, rfl, _⟩ := h
  rfl

theorem Rewired.components_eq (h : Rewired ids p q) :
    q.components = p.components := by
  obtain ⟨_, rfl, _⟩ := h
  rfl

theorem Rewired.subset (h : Rewired ids p q) : p.events ⊆ q.events := by
  obtain ⟨events, rfl, _⟩ := h
  exact List.subset_append_left _ _

/-- An event of a rewired page was there before or is the load of a bound
action. -/
theorem Rewired.event (h : Rewired ids p q) {e : PageEvent}
    (he : e ∈ q.events) :
    e ∈ p.events ∨ e.kind = Lifecycle.pageLoad ∧ e.actionId ∈ ids := by
  obtain ⟨events, rfl, hloads⟩ := h
  exact (List.mem_append.1 he).imp_right (hloads e)

theorem Rewired.trans (h : Rewired ids p q) (h' : Rewired ids q r) :
    Rewired ids p r := by
  obtain ⟨events, rfl, hloads⟩ := h
  obtain ⟨events', rfl, hloads'⟩ := h'
  refine ⟨events ++ events', by simp, fun e he => ?_⟩
  exact (List.mem_append.1 he).elim (hloads e) (hloads' e)

theorem Rewired.mono {ids' : List String} (h : Rewired ids p q)
    (hsub : ids ⊆ ids') :
    Rewired ids' p q := by
  obtain ⟨events, rfl, hloads⟩ := h
  exact ⟨events, rfl, fun e he => ⟨(hloads e he).1, hsub (hloads e he).2⟩⟩

theorem id_wire (event action : String) (p : Page) :
    (p.wire event action).id = p.id := by
  rw [wire]
  split <;> rfl

theorem rewired_wire {action : String} (hid : action ∈ ids) (p : Page) :
    Rewired ids p (p.wire Lifecycle.pageLoad action) := by
  rw [wire]
  split
  · exact .refl ids p
  · exact ⟨[⟨Lifecycle.pageLoad, action⟩], rfl, by simpa using hid⟩

end Page

/-! ## Rewired views -/

namespace View

/-- A view in which actions of some ids got triggers, and loads of pages that
run them. -/
structure Rewires (ids : List String) (v v' : View) : Prop where
  prior : v'.prior = v.prior
  components : v'.mutation.components = v.mutation.components
  actionsAdded :
    List.Forall₂ (Action.Retriggered ids) v.mutation.actionsAdded
      v'.mutation.actionsAdded
  actionsUpdated :
    List.Forall₂ (Action.Retriggered ids) v.mutation.actionsUpdated
      v'.mutation.actionsUpdated
  page : ∀ id, Option.Rel (Page.Rewired ids) (v.page? id) (v'.page? id)
  mutationPage : ∀ p' ∈ v'.mutation.pages,
    ∃ p, (p ∈ v.mutation.pages ∨ p ∈ v.pages) ∧ p.Rewired ids p'

namespace Rewires

variable {ids : List String} {v v' v'' : View}

theorem refl (ids : List String) (v : View) : Rewires ids v v where
  prior := rfl
  components := rfl
  actionsAdded := List.forall₂_same.2 fun a _ => .refl ids a
  actionsUpdated := List.forall₂_same.2 fun a _ => .refl ids a
  page _ := rel_refl (Page.Rewired.refl ids) _
  mutationPage p hp := ⟨p, .inl hp, .refl ids p⟩

theorem trans (h : Rewires ids v v') (h' : Rewires ids v' v'') :
    Rewires ids v v'' where
  prior := h'.prior.trans h.prior
  components := h'.components.trans h.components
  actionsAdded :=
    forall₂_trans h.actionsAdded h'.actionsAdded (fun _ _ _ => .trans)
  actionsUpdated :=
    forall₂_trans h.actionsUpdated h'.actionsUpdated (fun _ _ _ => .trans)
  page id := rel_trans (fun _ _ _ => .trans) (h.page id) (h'.page id)
  mutationPage r hr := by
    obtain ⟨q, hq | hq, hqr⟩ := h'.mutationPage r hr
    · obtain ⟨p, hp, hpq⟩ := h.mutationPage q hq
      exact ⟨p, hp, hpq.trans hqr⟩
    · -- the page was carried over from the snapshot in the second run
      obtain ⟨p, hp, hpq⟩ := exists_of_rel_right (h.page q.id) (mem_pages.1 hq)
      exact ⟨p, .inr (mem_pages_of_page? hp), hpq.trans hqr⟩

theorem mono {ids' : List String} (h : Rewires ids v v') (hsub : ids ⊆ ids') :
    Rewires ids' v v' where
  prior := h.prior
  components := h.components
  actionsAdded := h.actionsAdded.imp fun _ _ ha => ha.mono hsub
  actionsUpdated := h.actionsUpdated.imp fun _ _ ha => ha.mono hsub
  page id := rel_imp (fun _ _ hp => hp.mono hsub) (h.page id)
  mutationPage p' hp' := by
    obtain ⟨p, hp, hr⟩ := h.mutationPage p' hp'
    exact ⟨p, hp, hr.mono hsub⟩

theorem actions (h : Rewires ids v v') :
    List.Forall₂ (Action.Retriggered ids) v.mutation.actions
      v'.mutation.actions :=
  List.rel_append h.actionsAdded h.actionsUpdated

/-- Rewiring keeps the ids of the mutation's actions, and their order. -/
theorem map_id (h : Rewires ids v v') :
    v'.mutation.actions.map (·.id) = v.mutation.actions.map (·.id) :=
  map_key_of_forall₂ (fun _ _ => Action.Retriggered.id_eq) h.actions

theorem action? (h : Rewires ids v v') (id : String) :
    Option.Rel (Action.Retriggered ids) (v.action? id) (v'.action? id) := by
  rw [action?_eq, action?_eq, priorActions, priorActions, h.prior]
  exact rel_or
    (rel_find?_of_forall₂ Action.id (fun _ _ =>
      Action.Retriggered.id_eq) h.actions id)
    (rel_refl (Action.Retriggered.refl ids) _)

theorem mem_actionIds (h : Rewires ids v v') {id : String} :
    id ∈ v'.actionIds ↔ id ∈ v.actionIds := by
  rw [View.mem_actionIds, View.mem_actionIds, isSome_eq_of_rel (h.action? id)]

theorem components_eq (h : Rewires ids v v') :
    v'.components = v.components := by
  rw [View.components, View.components, h.components, h.prior]

/-- Rewiring takes away nothing that makes an action run. -/
theorem keepsRunning (h : Rewires ids v v') (id : String) :
    KeepsRunning v v' id where
  action a ha := by
    obtain ⟨a', ha', hr⟩ := exists_of_rel_left (h.action? id) ha
    exact ⟨a', ha', hr.subset⟩
  component c hc := ⟨c, h.components_eq ▸ hc, rfl, fun href => href⟩
  page p hp := by
    obtain ⟨p', hp', hr⟩ := exists_of_rel_left (h.page p.id) (mem_pages.1 hp)
    refine ⟨p', mem_pages_of_page? hp', ?_⟩
    rintro ⟨e, he, hwire⟩
    exact ⟨e, hr.subset he, hwire⟩

end Rewires

/-! ## One binding -/

theorem modifyAction?_eq_some {m m' : Mutation} {id : String}
    {f : Action → Action} (h : m.modifyAction? id f = some m') :
    (∃ added, Mutation.modifyFirst? (·.id == id) f m.actionsAdded = some added
      ∧ m' = { m with actionsAdded := added })
    ∨ ∃ updated, Mutation.modifyFirst? (·.id == id) f m.actionsUpdated
      = some updated
      ∧ m' = { m with actionsUpdated := updated } := by
  rw [Mutation.modifyAction?] at h
  split at h
  · next added hadded =>
    cases h
    exact .inl ⟨added, hadded, rfl⟩
  · obtain ⟨updated, hupdated, rfl⟩ := Option.map_eq_some_iff.1 h
    exact .inr ⟨updated, hupdated, rfl⟩

variable {prior : Option Snapshot}

/-- Changing an action by adding triggers is rewiring. -/
theorem rewires_modifyAction? {m m' : Mutation} {id : String} {t : Trigger}
    (ht : t.raw? = none)
    (h : m.modifyAction? id (Action.addTrigger t) = some m') :
    Rewires [id] ⟨m, prior⟩ ⟨m', prior⟩ := by
  have step : ∀ a : Action, (a.id == id) = true →
      a.Retriggered [id] (a.addTrigger t) := by
    intro a ha
    exact Action.retriggered_addTrigger ht (by simpa using ha)
  have start := Rewires.refl [id] ⟨m, prior⟩
  rcases modifyAction?_eq_some h
    with ⟨added, hadded, rfl⟩ | ⟨updated, hupdated, rfl⟩
  · exact { start with
      actionsAdded :=
        forall₂_modifyFirst? (Action.Retriggered.refl [id]) step hadded }
  · exact { start with
      actionsUpdated :=
        forall₂_modifyFirst? (Action.Retriggered.refl [id]) step hupdated }

/-- Changing a page by adding a load is rewiring. -/
theorem rewires_modifyPage? {m m' : Mutation} {page action : String}
    (h : m.modifyPage? page (·.wire Lifecycle.pageLoad action) = some m') :
    Rewires [action] ⟨m, prior⟩ ⟨m', prior⟩ := by
  have hwire :
      ∀ p : Page, p.Rewired [action] (p.wire Lifecycle.pageLoad action) :=
    Page.rewired_wire List.mem_cons_self
  have hpages : List.Forall₂ (Page.Rewired [action]) m.pages m'.pages := by
    have hmodify :=
      Mutation.pages_modifyPage? m page (·.wire Lifecycle.pageLoad action)
    rw [h] at hmodify
    exact forall₂_modifyFirst? (Page.Rewired.refl [action])
      (fun p _ => hwire p) hmodify.symm
  obtain ⟨hadded, hupdated, hcomponents⟩ := Mutation.frame_modifyPage? h
  have start := Rewires.refl [action] ⟨m, prior⟩
  exact {
    prior := rfl
    components := hcomponents
    actionsAdded := hadded ▸ start.actionsAdded
    actionsUpdated := hupdated ▸ start.actionsUpdated
    -- the snapshot stays, and what stands before it is rewired
    page := fun id => by
      rw [page?_eq, page?_eq]
      exact rel_or
        (rel_find?_of_forall₂ Page.id (fun _ _ => Page.Rewired.id_eq) hpages id)
        (rel_refl (Page.Rewired.refl [action]) _)
    mutationPage := fun p' hp' => by
      obtain ⟨p, hp, hr⟩ := mem_right_of_forall₂ hpages hp'
      exact ⟨p, .inl hp, hr⟩ }

/-- The mutation with a page added to those updated. -/
theorem pages_carry (m : Mutation) (p : Page) :
    Mutation.pages { m with pagesUpdated := m.pagesUpdated ++ [p] }
      = m.pages ++ [p] := by
  simp [Mutation.pages]

/-- Carrying a page over from the snapshot with a load added is rewiring. -/
theorem rewires_carry {m : Mutation} {page action : String} {p : Page}
    (hnone : m.page? page = none)
    (hp : (View.mk m prior).priorPages.find? (·.id == page) = some p) :
    Rewires [action] ⟨m, prior⟩
      ⟨{ m with
        pagesUpdated := m.pagesUpdated ++ [p.wire Lifecycle.pageLoad action] },
        prior⟩ := by
  have hid : p.id = page := by simpa using List.find?_some hp
  have hwire : p.Rewired [action] (p.wire Lifecycle.pageLoad action) :=
    Page.rewired_wire List.mem_cons_self p
  have hview : p ∈ (View.mk m prior).pages := by
    rw [mem_pages, page?_eq, hid, hnone, Option.none_or]
    exact hp
  exact { Rewires.refl [action] ⟨m, prior⟩ with
    page := fun id => by
      rw [page?_eq, page?_eq, Mutation.page?, Mutation.page?, pages_carry,
        List.find?_append, Option.or_assoc]
      refine rel_or (rel_refl (Page.Rewired.refl [action]) _) ?_
      show Option.Rel (Page.Rewired [action])
        ((View.mk m prior).priorPages.find? (·.id == id))
        (([p.wire Lifecycle.pageLoad action].find? (·.id == id)).or
          ((View.mk m prior).priorPages.find? (·.id == id)))
      rw [List.find?_singleton, Page.id_wire, hid]
      by_cases h : page = id
      · -- the carried page now stands where the page of the snapshot stood
        subst h
        rw [hp, beq_self_eq_true, if_pos rfl, Option.some_or]
        exact .some hwire
      · rw [if_neg (by simpa using h), Option.none_or]
        exact rel_refl (Page.Rewired.refl [action]) _
    mutationPage := fun p' hp' => by
      rw [pages_carry, List.mem_append, List.mem_singleton] at hp'
      rcases hp' with hp' | rfl
      · exact ⟨p', .inl hp', .refl [action] p'⟩
      · exact ⟨p, .inr hview, hwire⟩ }

theorem find?_priorPages (v : View) (page : String) :
    v.priorPages.find? (·.id == page)
      = (v.prior.map (·.pages)).bind fun pages =>
        pages.find? (·.id == page) := by
  rw [priorPages]
  cases v.prior <;> rfl

/-- Wiring the load of a page changes a page of the mutation, or carries one
over from the snapshot, or finds no page. -/
theorem wirePageLoad_cases (m : Mutation) (prior : Option Snapshot)
    (page action : String) :
    m.modifyPage? page (·.wire Lifecycle.pageLoad action)
        = some (m.wirePageLoad prior page action)
      ∨ (∃ p, m.page? page = none
        ∧ (View.mk m prior).priorPages.find? (·.id == page) = some p
        ∧ m.wirePageLoad prior page action
          = { m with pagesUpdated :=
              m.pagesUpdated ++ [p.wire Lifecycle.pageLoad action] })
      ∨ ((View.mk m prior).page? page = none
        ∧ m.wirePageLoad prior page action = m) := by
  simp only [Mutation.wirePageLoad, ← find?_priorPages ⟨m, prior⟩]
  cases h : m.modifyPage? page (·.wire Lifecycle.pageLoad action) with
  | some m' => exact .inl rfl
  | none =>
    have hnone : m.page? page = none := Mutation.page?_eq_none_of_modifyPage? h
    cases hp : (View.mk m prior).priorPages.find? (·.id == page) with
    | some p => exact .inr (.inl ⟨p, hnone, rfl, rfl⟩)
    | none => exact .inr (.inr ⟨by rw [page?_eq, hnone, hp]; rfl, rfl⟩)

theorem rewires_wirePageLoad (m : Mutation) (page action : String) :
    Rewires [action] ⟨m, prior⟩ ⟨m.wirePageLoad prior page action, prior⟩ := by
  rcases wirePageLoad_cases m prior page action
    with h | ⟨p, hnone, hp, heq⟩ | ⟨_, heq⟩
  · exact rewires_modifyPage? h
  · rw [heq]
    exact rewires_carry hnone hp
  · rw [heq]
    exact .refl _ _

theorem raw?_trigger (reason : String) (b : Binding) :
    (b.trigger reason).raw? = none := by
  cases b <;> rfl

theorem isRootTrigger_trigger (v : View) (reason : String) (b : Binding) :
    v.isRootTrigger (b.trigger reason) = true := by
  cases b <;> rfl

/-- The first half of a binding gives the action its trigger. -/
theorem rewires_addTrigger (m : Mutation) (id : String) {t : Trigger}
    (ht : t.raw? = none) :
    Rewires [id] ⟨m, prior⟩
      ⟨(m.modifyAction? id (Action.addTrigger t)).getD m, prior⟩ := by
  cases h : m.modifyAction? id (Action.addTrigger t) with
  | none => exact .refl _ _
  | some m' => exact rewires_modifyAction? ht h

/-- The first half of a binding leaves the pages alone. -/
theorem pages_addTrigger (m : Mutation) (id : String) (t : Trigger) :
    ((m.modifyAction? id (Action.addTrigger t)).getD m).pagesAdded
      = m.pagesAdded
      ∧ ((m.modifyAction? id (Action.addTrigger t)).getD m).pagesUpdated
        = m.pagesUpdated := by
  cases h : m.modifyAction? id (Action.addTrigger t) with
  | none => exact ⟨rfl, rfl⟩
  | some m' =>
    rcases modifyAction?_eq_some h with ⟨_, _, rfl⟩ | ⟨_, _, rfl⟩
      <;> exact ⟨rfl, rfl⟩

/-- One binding is rewiring. -/
theorem rewires_bind (m : Mutation) (reason id : String) (b : Binding) :
    Rewires [id] ⟨m, prior⟩ ⟨m.bind prior reason id b, prior⟩ := by
  have htrigger : Rewires [id] ⟨m, prior⟩ _ :=
    rewires_addTrigger m id (raw?_trigger reason b)
  cases b with
  | pageLoad page => exact htrigger.trans (rewires_wirePageLoad _ page id)
  | stateChange key => exact htrigger
  | safetyNet => exact htrigger

/-- Wiring the load of a page leaves the actions alone. -/
theorem actions_wirePageLoad (m : Mutation) (prior : Option Snapshot)
    (page action : String) :
    (m.wirePageLoad prior page action).actions = m.actions := by
  rcases wirePageLoad_cases m prior page action
    with h | ⟨_, _, _, heq⟩ | ⟨_, heq⟩
  · obtain ⟨hadded, hupdated, _⟩ := Mutation.frame_modifyPage? h
    rw [Mutation.actions, hadded, hupdated, Mutation.actions]
  · rw [heq]
    rfl
  · rw [heq]

theorem action?_wirePageLoad (m : Mutation) (page action id : String) :
    (View.mk (m.wirePageLoad prior page action) prior).action? id
      = (View.mk m prior).action? id := by
  rw [action?_eq, action?_eq, Mutation.action?, Mutation.action?,
    actions_wirePageLoad]
  rfl

/-- A bound action has the trigger of its binding. -/
theorem action?_bind_self {m : Mutation} {reason id : String}
    {b : Binding} {a : Action} (ha : m.action? id = some a) :
    (View.mk (m.bind prior reason id b) prior).action? id
      = some (a.addTrigger (b.trigger reason)) := by
  obtain ⟨m', hm', hfound⟩ :=
    Mutation.action?_modifyAction? (Action.id_addTrigger (b.trigger reason)) ha
  have hview :
      (View.mk m' prior).action? id
        = some (a.addTrigger (b.trigger reason)) := by
    rw [action?_eq, hfound, Option.some_or]
  cases b with
  | pageLoad page =>
    rw [Mutation.bind, hm']
    exact (action?_wirePageLoad m' page id id).trans hview
  | stateChange key => simpa [Mutation.bind, hm'] using hview
  | safetyNet => simpa [Mutation.bind, hm'] using hview

/-- A binding leaves the other actions alone. -/
theorem action?_bind_of_ne (m : Mutation) (reason : String)
    {id j : String} (b : Binding) (hne : j ≠ id) :
    (View.mk (m.bind prior reason id b) prior).action? j
      = (View.mk m prior).action? j := by
  have hrewires : Rewires [id] ⟨m, prior⟩ ⟨m.bind prior reason id b, prior⟩ :=
    rewires_bind m reason id b
  have hrel := hrewires.action? j
  revert hrel
  generalize (View.mk (m.bind prior reason id b) prior).action? j = found'
  cases hfound : (View.mk m prior).action? j with
  | none =>
    intro hrel
    cases hrel
    rfl
  | some a =>
    intro hrel
    obtain ⟨_, rfl, triggers, rfl, _, hnone⟩ := exists_of_rel_left hrel rfl
    have haid : a.id = j := id_of_action? hfound
    rw [hnone (by simpa [haid] using hne), List.append_nil]

/-- An action of the mutation is a root once it is bound. -/
theorem mem_roots_bind {m : Mutation} {reason id : String} {b : Binding}
    (hid : id ∈ m.actions.map (·.id)) :
    id ∈ (View.mk (m.bind prior reason id b) prior).roots := by
  obtain ⟨a, ha⟩ := Option.isSome_iff_exists.1 (Mutation.action?_isSome.2 hid)
  have hbound : (View.mk (m.bind prior reason id b) prior).action? id
      = some (a.addTrigger (b.trigger reason)) := action?_bind_self ha
  exact mem_roots.2 ⟨mem_actionIds.2 (by rw [hbound]; rfl),
    .inr ⟨_, hbound, _, Action.mem_addTrigger _ a,
      isRootTrigger_trigger _ reason b⟩⟩

/-! ## A run of bindings -/

/-- Carrying out a run of bindings is rewiring. -/
theorem rewires_bindAll (m : Mutation) (reason : String)
    (plans : List (String × Binding)) :
    Rewires (plans.map (·.1)) ⟨m, prior⟩
      ⟨m.bindAll prior reason plans, prior⟩ := by
  induction plans generalizing m with
  | nil => exact .refl [] _
  | cons plan plans ih =>
    have hfirst :
        Rewires [plan.1] ⟨m, prior⟩
          ⟨m.bind prior reason plan.1 plan.2, prior⟩ :=
      rewires_bind m reason plan.1 plan.2
    have hrest := ih (m.bind prior reason plan.1 plan.2)
    exact (hfirst.mono (by simp)).trans (hrest.mono (List.subset_cons_self _ _))

/-- After a run of bindings every action that was bound is a root. -/
theorem mem_roots_bindAll {m : Mutation} {reason : String}
    {plans : List (String × Binding)} {id : String}
    (hplan : id ∈ plans.map (·.1)) (hid : id ∈ m.actions.map (·.id)) :
    id ∈ (View.mk (m.bindAll prior reason plans) prior).roots := by
  induction plans generalizing m with
  | nil => cases hplan
  | cons plan plans ih =>
    have hfirst :
        Rewires [plan.1] ⟨m, prior⟩
          ⟨m.bind prior reason plan.1 plan.2, prior⟩ :=
      rewires_bind m reason plan.1 plan.2
    rcases List.mem_cons.1 hplan with rfl | hplan
    · -- later bindings keep it running
      exact ((rewires_bindAll _ reason plans).keepsRunning plan.1).mem_roots
        (mem_roots_bind hid)
    · exact ih hplan (hfirst.map_id.symm ▸ hid)

end View

end IntentGraph
