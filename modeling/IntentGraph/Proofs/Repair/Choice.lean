import IntentGraph.Proofs.Ownership.Claim
import IntentGraph.Proofs.Repair.Removal

/-!
# Which page a call is loaded on

A call that nothing runs is made to run on the load of a page: the one that it
names, or else the page of the first component that shows its result, or else
the first page there is (`View.LoadsOn`). That is what `View.targetPage?` finds,
and it finds one wherever there are pages.

The choice is made once redundant actions are removed. Since a removal changes
events and nothing else of pages and components, and no choice looks at events,
what is chosen is what would have been chosen before:
`View.chooseBinding_removeActions`.
-/

namespace IntentGraph

/-! ## The page of a call -/

/-- What is found first among what some elements have is had by the first of
them that has any. -/
theorem find?_filterMap_eq_some_iff {α β : Type} {f : α → Option β}
    {p : β → Bool} {xs : List α} {y : β} : (xs.filterMap f).find? p = some y ↔
      ∃ before x after, xs = before ++ x :: after ∧ (f x = some y ∧ p y = true)
        ∧ ∀ b ∈ before, ∀ z, ¬ (f b = some z ∧ p z = true) := by
  rw [List.find?_filterMap, Option.bind_eq_some_iff]
  constructor
  · rintro ⟨x, hfound, hy⟩
    obtain ⟨hany, before, after, heq, hbefore⟩ :=
      List.find?_eq_some_iff_append.1 hfound
    rw [hy, Option.any_some] at hany
    refine ⟨before, x, after, heq, ⟨hy, hany⟩, ?_⟩
    rintro b hb z ⟨hz, hp⟩
    simpa [hz, hp] using hbefore b hb
  · rintro ⟨before, x, after, rfl, ⟨hy, hp⟩, hbefore⟩
    refine ⟨x, List.find?_eq_some_iff_append.2
      ⟨by rw [hy, Option.any_some, hp], before, after, rfl, fun b hb => ?_⟩, hy⟩
    cases hz : f b with
    | none => rfl
    | some z => simpa [hz] using hbefore b hb z

namespace View

variable {v : View} {a : Action} {key page : String}

/-- An action names a page that there is. -/
def NamesPage (v : View) (a : Action) (page : String) : Prop :=
  a.config.get? ConfigKey.pageId = some (.string page) ∧ (v.page? page).isSome

/-- A component renders a key on a page that there is. -/
def ShowsOn (v : View) (c : Component) (key page : String) : Prop :=
  key ∈ c.readKeys ∧ (Ownership.ofView v).pageOf? c.id = some page
    ∧ (v.page? page).isSome

/-- The first component that renders a key on a page does so on this one. -/
def FirstShownOn (v : View) (key page : String) : Prop :=
  ∃ before c after, v.components = before ++ c :: after ∧ v.ShowsOn c key page
    ∧ ∀ b ∈ before, ∀ page', ¬ v.ShowsOn b key page'

/-- A page is the one on whose load a call is to run: the one that it names, or
else the one on which its result is shown first, or else the first one. -/
inductive LoadsOn (v : View) (a : Action) : String → Prop
  | named {page : String} : v.NamesPage a page → LoadsOn v a page
  | shown {key page : String} : (∀ page', ¬ v.NamesPage a page') →
    a.assignedKey? = some key → v.FirstShownOn key page → LoadsOn v a page
  | first {p : Page} : (∀ page', ¬ v.NamesPage a page') →
      (∀ key, a.assignedKey? = some key → ∀ page', ¬ v.FirstShownOn key page') →
      v.pages.head? = some p → LoadsOn v a p.id

theorem namedPage?_eq_some_iff :
    v.namedPage? a = some page ↔ v.NamesPage a page := by
  rw [namedPage?, Option.filter_eq_some_iff, NamesPage, Option.bind_eq_some_iff]
  refine and_congr_left fun _ => ⟨?_, fun h => ⟨_, h, rfl⟩⟩
  rintro ⟨value, hvalue, htext⟩
  cases value with
  | string s =>
    cases htext
    exact hvalue
  | _ => cases htext

theorem renderingPage?_eq_some_iff :
    v.renderingPage? key = some page ↔ v.FirstShownOn key page := by
  have hshows : ∀ (c : Component) (page' : String),
      ((if c.readKeys.contains key = true
        then (Ownership.ofView v).pageOf? c.id else none)
        = some page' ∧ (v.page? page').isSome = true)
          ↔ v.ShowsOn c key page' := by
    intro c page'
    rw [ShowsOn, ← and_assoc]
    refine and_congr_left fun _ => ?_
    split
    · next hreads =>
      exact (and_iff_right (KeySet.contains_iff_mem.1 hreads)).symm
    · next hreads => simp [mt KeySet.contains_iff_mem.2 hreads]
  simp only [renderingPage?, List.filterMap_filter,
    find?_filterMap_eq_some_iff, hshows, FirstShownOn]

/-- The choice of a page is the page on whose load a call is to run. -/
theorem targetPage?_eq_some_iff :
    v.targetPage? a = some page ↔ v.LoadsOn a page := by
  -- each fallback is for when the choice before it has no page
  have hnamed : v.namedPage? a = none ↔ ∀ page', ¬ v.NamesPage a page' := by
    simp only [Option.eq_none_iff_forall_ne_some, ne_eq, namedPage?_eq_some_iff]
  have hshown : ∀ page', a.assignedKey?.bind v.renderingPage? = some page'
      ↔ ∃ key, a.assignedKey? = some key ∧ v.FirstShownOn key page' := by
    intro page'
    simp only [Option.bind_eq_some_iff, renderingPage?_eq_some_iff]
  have hunshown : a.assignedKey?.bind v.renderingPage? = none
      ↔ ∀ key, a.assignedKey? = some key →
        ∀ page', ¬ v.FirstShownOn key page' := by
    simp only [Option.eq_none_iff_forall_ne_some, ne_eq, hshown,
      not_exists, not_and]
    exact ⟨fun h key hkey page' => h page' key hkey,
      fun h page' key hkey => h key hkey page'⟩
  rw [targetPage?, Option.or_eq_some_iff, Option.or_eq_some_iff,
    namedPage?_eq_some_iff, hnamed, hshown, hunshown, Option.map_eq_some_iff]
  constructor
  · rintro (hnames | ⟨hnone, ⟨key, hkey, hfirst⟩ | ⟨hnot, p, hp, rfl⟩⟩)
    · exact .named hnames
    · exact .shown hnone hkey hfirst
    · exact .first hnone hnot hp
  · intro h
    cases h with
    | named hnames => exact .inl hnames
    | shown hnone hkey hfirst => exact .inr ⟨hnone, .inl ⟨_, hkey, hfirst⟩⟩
    | first hnone hnot hp => exact .inr ⟨hnone, .inr ⟨hnot, _, hp, rfl⟩⟩

theorem LoadsOn.unique {page' : String} (h : v.LoadsOn a page)
    (h' : v.LoadsOn a page') :
    page = page' :=
  Option.some.inj
    ((targetPage?_eq_some_iff.2 h).symm.trans (targetPage?_eq_some_iff.2 h'))

/-- A page is found wherever there is one. -/
theorem targetPage?_eq_none_iff : v.targetPage? a = none ↔ v.pages = [] := by
  rw [targetPage?, Option.or_eq_none_iff, Option.or_eq_none_iff,
    Option.map_eq_none_iff, List.head?_eq_none_iff]
  refine ⟨fun h => h.2.2, fun hnone => ?_⟩
  have hpage : ∀ id, v.page? id = none :=
    fun id => by rw [page?, hnone, List.find?_nil]
  refine ⟨?_, ?_, hnone⟩
  · rw [Option.eq_none_iff_forall_ne_some]
    intro page hpage'
    have hsome := (namedPage?_eq_some_iff.1 hpage').2
    rw [hpage page] at hsome
    cases hsome
  · rw [Option.bind_eq_none_iff]
    intro key _
    rw [Option.eq_none_iff_forall_ne_some]
    intro page hpage'
    obtain ⟨_, _, _, _, hshows, _⟩ := renderingPage?_eq_some_iff.1 hpage'
    rw [ShowsOn, hpage page] at hshows
    cases hshows.2.2

/-- Where there is a page, every call has one on whose load it is to run. -/
theorem exists_loadsOn (hsome : v.pages ≠ []) (a : Action) :
    ∃ page, v.LoadsOn a page := by
  obtain ⟨page, hpage⟩ :=
    Option.ne_none_iff_exists'.1 (mt targetPage?_eq_none_iff.1 hsome)
  exact ⟨page, targetPage?_eq_some_iff.1 hpage⟩

/-- The page on whose load a call is to run is one of the view. -/
theorem LoadsOn.isSome_page? (h : v.LoadsOn a page) :
    (v.page? page).isSome := by
  cases h with
  | named hnames => exact hnames.2
  | shown _ _ hfirst =>
    obtain ⟨_, _, _, _, hshows, _⟩ := hfirst
    exact hshows.2.2
  | first _ _ hp => rw [mem_pages.1 (List.mem_of_head? hp), Option.isSome_some]

theorem chooseBinding_eq_pageLoad_iff : v.chooseBinding a = .pageLoad page ↔
    a.templatedKeys = ∅ ∧ a.kind = .integrationCall ∧ v.LoadsOn a page := by
  rw [← targetPage?_eq_some_iff]
  rw [chooseBinding, ← KeySet.members_eq_nil]
  cases a.templatedKeys.members with
  | cons key rest => simp
  | nil =>
    by_cases hcall : a.kind = .integrationCall
    · cases v.targetPage? a <;> simp [hcall]
    · simp [hcall]

/-- Without a page there is nothing left but the safety net. -/
theorem chooseBinding_eq_safetyNet (hplain : a.templatedKeys = ∅)
    (hnone : v.pages = []) :
    v.chooseBinding a = .safetyNet := by
  simp [chooseBinding, hplain, targetPage?_eq_none_iff.2 hnone]

end View

/-! ## Choices do not look at events -/

/-- The component with other events, if any. -/
def Component.DiffersInEvents (c c' : Component) : Prop :=
  ∃ events, c' = { c with events }

/-- The page with other events, if any. -/
def Page.DiffersInEvents (p p' : Page) : Prop :=
  ∃ events, p' = { p with events }

theorem Component.DiffersInEvents.id_eq {c c' : Component}
    (h : c.DiffersInEvents c') :
    c'.id = c.id := by
  obtain ⟨_, rfl⟩ := h
  rfl

theorem Page.DiffersInEvents.id_eq {p p' : Page} (h : p.DiffersInEvents p') :
    p'.id = p.id := by
  obtain ⟨_, rfl⟩ := h
  rfl

theorem flatMap_eq_of_forall₂ {α β : Type} {R : α → α → Prop} {f : α → List β}
    (keeps : ∀ x y, R x y → f y = f x) {xs ys : List α}
    (h : List.Forall₂ R xs ys) :
    ys.flatMap f = xs.flatMap f := by
  rw [List.flatMap_def, List.flatMap_def, map_key_of_forall₂ keeps h]

theorem filterMap_eq_of_forall₂ {α β : Type} {R : α → α → Prop}
    {f : α → Option β} (keeps : ∀ x y, R x y → f y = f x) {xs ys : List α}
    (h : List.Forall₂ R xs ys) :
    ys.filterMap f = xs.filterMap f := by
  rw [← Function.id_comp f, ← List.filterMap_map, ← List.filterMap_map,
    map_key_of_forall₂ keeps h]

/-- The first elements of every key are related where the elements are. -/
theorem forall₂_distinctBy {α β : Type} [DecidableEq β] {key : α → β}
    {R : α → α → Prop} (keeps : ∀ x y, R x y → key y = key x) {xs ys : List α}
    (h : List.Forall₂ R xs ys) :
    List.Forall₂ R (distinctBy key xs) (distinctBy key ys) := by
  induction xs using distinctBy_induction key generalizing ys with
  | nil =>
    cases h
    exact .nil
  | cons x rest ih =>
    cases h with
    | @cons _ y _ rest' hxy hrest =>
      -- without the elements of the first key the rests are still related
      rw [distinctBy_cons, distinctBy_cons, keeps x y hxy]
      refine .cons hxy (ih (List.rel_filter (fun z z' hz => ?_) hrest))
      simp only [keeps z z' hz]

namespace Ownership

theorem forall₂_insertById {c c' : Component} {cs cs' : List Component}
    (hc : c.DiffersInEvents c')
    (hcs : List.Forall₂ Component.DiffersInEvents cs cs') :
    List.Forall₂ Component.DiffersInEvents (insertById c cs)
      (insertById c' cs') := by
  induction hcs with
  | nil => exact .cons hc .nil
  | @cons d d' rest rest' hd hrest ih =>
    rw [insertById, insertById, hc.id_eq, hd.id_eq]
    split
    · exact .cons hc (.cons hd hrest)
    · exact .cons hd ih

theorem forall₂_sortById {cs cs' : List Component}
    (h : List.Forall₂ Component.DiffersInEvents cs cs') :
    List.Forall₂ Component.DiffersInEvents
      (cs.foldr insertById []) (cs'.foldr insertById []) := by
  induction h with
  | nil => exact .nil
  | cons hc _ ih => exact forall₂_insertById hc ih

/-- The claims are the same, and the components differ in events. -/
structure DiffersInEvents (o o' : Ownership) : Prop where
  components : List.Forall₂ Component.DiffersInEvents o.components o'.components
  claims : o'.claims = o.claims

namespace DiffersInEvents

variable {o o' : Ownership}

theorem isKnown_eq (h : DiffersInEvents o o') (id : String) :
    o'.isKnown id = o.isKnown id := by
  have hids := map_key_of_forall₂ (fun _ _ hc => hc.id_eq) h.components
  rw [Bool.eq_iff_iff, isKnown_iff, isKnown_iff, hids]

theorem ascend_eq (h : DiffersInEvents o o') (fuel : Nat) (seen : List String)
    (id : String) :
    o'.ascend fuel seen id = o.ascend fuel seen id := by
  have howner : ∀ id, o'.owner? id = o.owner? id := fun id => by
    rw [owner?, owner?, h.isKnown_eq, h.claims]
  induction fuel generalizing seen id with
  | zero => rfl
  | succ fuel ih => simp only [ascend, howner, ih]

theorem pageId_eq (h : DiffersInEvents o o') (id : String) :
    (o'.component? id).bind (·.pageId) = (o.component? id).bind (·.pageId) := by
  have hrel : Option.Rel Component.DiffersInEvents (o.component? id)
      (o'.component? id) :=
    rel_find?_of_forall₂ Component.id (fun _ _ hc => hc.id_eq) h.components id
  revert hrel
  generalize o.component? id = found, o'.component? id = found'
  rintro (⟨_, rfl⟩ | _) <;> rfl

theorem pageOf?_eq (h : DiffersInEvents o o') (id : String) :
    o'.pageOf? id = o.pageOf? id := by
  have hclimb : o'.climb id = o.climb id := by
    rw [climb, h.ascend_eq, ← h.components.length_eq, climb]
  rw [pageOf?, h.isKnown_eq, hclimb, pageOf?]
  simp only [h.pageId_eq]

end DiffersInEvents

end Ownership

namespace View

/-- The pages and the components of two views differ in events. -/
structure DiffersInEvents (v v' : View) : Prop where
  components : List.Forall₂ Component.DiffersInEvents v.components v'.components
  pages : List.Forall₂ Page.DiffersInEvents v.pages v'.pages

namespace DiffersInEvents

variable {v v' : View}

theorem isSome_page?_eq (h : DiffersInEvents v v') (id : String) :
    (v'.page? id).isSome = (v.page? id).isSome :=
  isSome_eq_of_rel
    (rel_find?_of_forall₂ Page.id (fun _ _ hp => hp.id_eq) h.pages id)

theorem ownership (h : DiffersInEvents v v') :
    (Ownership.ofView v).DiffersInEvents (Ownership.ofView v') := by
  have hcomponents := Ownership.forall₂_sortById h.components
  refine ⟨hcomponents, ?_⟩
  simp only [Ownership.ofView]
  rw [flatMap_eq_of_forall₂ _ h.pages, flatMap_eq_of_forall₂ _ hcomponents]
  · rintro _ _ ⟨_, rfl⟩
    rfl
  · rintro _ _ ⟨_, rfl⟩
    rfl

theorem renderingPage?_eq (h : DiffersInEvents v v') (key : String) :
    v'.renderingPage? key = v.renderingPage? key := by
  have hshown : ∀ c c' : Component, c.DiffersInEvents c' →
      (if c'.readKeys.contains key = true
        then (Ownership.ofView v).pageOf? c'.id else none)
        = if c.readKeys.contains key = true
          then (Ownership.ofView v).pageOf? c.id else none := by
    rintro c _ ⟨_, rfl⟩
    rfl
  simp only [renderingPage?, List.filterMap_filter, h.isSome_page?_eq,
    h.ownership.pageOf?_eq]
  rw [filterMap_eq_of_forall₂ hshown h.components]

theorem targetPage?_eq (h : DiffersInEvents v v') (a : Action) :
    v'.targetPage? a = v.targetPage? a := by
  have hids : v'.pages.map (·.id) = v.pages.map (·.id) :=
    map_key_of_forall₂ (fun _ _ hp => hp.id_eq) h.pages
  have hrendering : v'.renderingPage? = v.renderingPage? :=
    funext h.renderingPage?_eq
  simp only [targetPage?, namedPage?, hrendering, h.isSome_page?_eq,
    ← List.head?_map, hids]

theorem chooseBinding_eq (h : DiffersInEvents v v') (a : Action) :
    v'.chooseBinding a = v.chooseBinding a := by
  simp only [chooseBinding, h.targetPage?_eq]

end DiffersInEvents

theorem differsInEvents_removeActions (v : View) (ids : List String) :
    v.DiffersInEvents (v.removeActions ids) where
  components := by
    refine forall₂_distinctBy (fun _ _ hc => hc.id_eq) (List.rel_append ?_ ?_)
    · show List.Forall₂ _ v.mutation.components
        (v.mutation.removeActions ids).components
      rw [Mutation.components_removeActions]
      exact List.forall₂_map_right_iff.2
        (List.forall₂_same.2 fun c _ => ⟨_, rfl⟩)
    · exact List.forall₂_same.2 fun c _ => ⟨c.events, rfl⟩
  pages := by
    refine forall₂_distinctBy (fun _ _ hp => hp.id_eq) (List.rel_append ?_ ?_)
    · show List.Forall₂ _ v.mutation.pages (v.mutation.removeActions ids).pages
      rw [Mutation.pages_removeActions]
      exact List.forall₂_map_right_iff.2
        (List.forall₂_same.2 fun p _ => ⟨_, rfl⟩)
    · exact List.forall₂_same.2 fun p _ => ⟨p.events, rfl⟩

/-- A removal changes no choice. -/
theorem chooseBinding_removeActions (v : View) (ids : List String)
    (a : Action) :
    (v.removeActions ids).chooseBinding a = v.chooseBinding a :=
  (differsInEvents_removeActions v ids).chooseBinding_eq a

end View

end IntentGraph
