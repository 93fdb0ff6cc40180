import IntentGraph.View
import Mathlib.Data.List.Nodup
import Mathlib.Data.List.Perm.Subperm
import Mathlib.Order.Basic

/-!
# Looking up entries of the merged view

The merged view keeps the first entry of every id. Everything that the analyses
ask of it goes by id, so what counts is which entry an id stands for:

* `find?_distinctBy`: among the first elements of every key, a key stands for
  what it stands for in the whole list;
* `View.action?_eq`, `View.component?_eq`, `View.page?_eq`: an id stands for an
  entry of the mutation, or else for one of the snapshot;
* `View.mem_actions`, `View.mem_components`, `View.mem_pages`: the entries of
  the view are the ones that their ids stand for.
-/

namespace IntentGraph

/-! ## First elements of every key -/

section distinctBy

variable {α β : Type} [DecidableEq β] {key : α → β}

/-- Induction that follows `distinctBy`: the rest is what does not have the key
of the first. -/
theorem distinctBy_induction (key : α → β) {P : List α → Prop} (nil : P [])
    (cons : ∀ x rest, P (rest.filter fun y => key y ≠ key x) → P (x :: rest))
    (xs : List α) :
    P xs := by
  induction hn : xs.length using Nat.strongRecOn generalizing xs with
  | ind n ih =>
    cases xs with
    | nil => exact nil
    | cons x rest =>
      have hlen : (rest.filter fun y => key y ≠ key x).length < n := by
        rw [← hn, List.length_cons]
        exact Nat.lt_succ_of_le (List.length_filter_le _ _)
      exact cons x rest (ih _ hlen _ rfl)

/-- Among the first elements of every key, a key stands for what it stands for
in the list. -/
theorem find?_distinctBy (key : α → β) (xs : List α) (k : β) :
    (distinctBy key xs).find? (key · == k) = xs.find? (key · == k) := by
  induction xs using distinctBy_induction key with
  | nil => rfl
  | cons x rest ih =>
    rw [distinctBy_cons, List.find?_cons, List.find?_cons]
    by_cases hk : key x = k
    · simp [hk]
    · have hrest : (rest.filter fun y => key y ≠ key x).find? (key · == k)
          = rest.find? (key · == k) := by
        rw [List.find?_filter]
        congr 1
        funext y
        by_cases hy : key y = k
        · simp [hy, Ne.symm hk]
        · simp [hy]
      rw [ih, hrest]

/-- The first elements of every key have different keys. -/
theorem nodup_map_distinctBy (key : α → β) (xs : List α) :
    ((distinctBy key xs).map key).Nodup := by
  induction xs using distinctBy_induction key with
  | nil => exact List.nodup_nil
  | cons x rest ih =>
    rw [distinctBy_cons, List.map_cons, List.nodup_cons]
    refine ⟨fun hmem => ?_, ih⟩
    obtain ⟨y, hy, hkey⟩ := List.mem_map.1 hmem
    -- nothing in the rest stands for the key of the first, so `y` cannot have
    -- it
    have hfind :=
      find?_distinctBy key (rest.filter fun y => key y ≠ key x) (key x)
    have hnone :
        (rest.filter fun y => key y ≠ key x).find? (key · == key x) = none := by
      simp
    rw [hnone, List.find?_eq_none] at hfind
    exact hfind y hy (by simp [hkey])

theorem nodup_distinctBy_id (xs : List β) : (distinctBy id xs).Nodup := by
  have hnodup := nodup_map_distinctBy id xs
  rwa [List.map_id] at hnodup

/-- A key stands for an element iff some element has it. -/
theorem isSome_find?_iff {xs : List α} {k : β} :
    (xs.find? (key · == k)).isSome ↔ k ∈ xs.map key := by
  rw [List.find?_isSome]
  simp

theorem find?_key_eq_none {xs : List α} {k : β} :
    xs.find? (key · == k) = none ↔ k ∉ xs.map key := by
  rw [← isSome_find?_iff, Bool.not_eq_true, Option.isSome_eq_false_iff,
    Option.isNone_iff_eq_none]

/-- In a list with different keys a key stands for the element that has it. -/
theorem find?_eq_some_of_nodup {xs : List α} (hnodup : (xs.map key).Nodup)
    {x : α} (hx : x ∈ xs) :
    xs.find? (key · == key x) = some x := by
  obtain ⟨y, hy⟩ : ∃ y, xs.find? (key · == key x) = some y :=
    Option.isSome_iff_exists.1 (isSome_find?_iff.2 (List.mem_map_of_mem hx))
  have hkey : key y = key x := by simpa using List.find?_some hy
  have hyx : y = x :=
    List.inj_on_of_nodup_map hnodup (List.mem_of_find?_eq_some hy) hx hkey
  rw [hy, hyx]

/-- An element is a first one iff its key stands for it. -/
theorem mem_distinctBy {xs : List α} {x : α} :
    x ∈ distinctBy key xs ↔ xs.find? (key · == key x) = some x := by
  rw [← find?_distinctBy]
  exact ⟨find?_eq_some_of_nodup (nodup_map_distinctBy key xs),
    List.mem_of_find?_eq_some⟩

theorem mem_of_mem_distinctBy {xs : List α} {x : α}
    (h : x ∈ distinctBy key xs) : x ∈ xs :=
  List.mem_of_find?_eq_some (mem_distinctBy.1 h)

/-- The first elements of every key stand in order. -/
theorem distinctBy_sublist (key : α → β) (xs : List α) :
    (distinctBy key xs).Sublist xs := by
  induction xs using distinctBy_induction key with
  | nil => exact List.Sublist.refl []
  | cons x rest ih =>
    rw [distinctBy_cons]
    exact (ih.trans List.filter_sublist).cons_cons x

/-- The first elements of a longer list begin with those of a shorter. -/
theorem distinctBy_prefix {xs ys : List α} (h : xs <+: ys) :
    distinctBy key xs <+: distinctBy key ys := by
  induction xs using distinctBy_induction key generalizing ys with
  | nil => exact List.nil_prefix
  | cons x rest ih =>
    obtain ⟨more, rfl⟩ := h
    rw [List.cons_append, distinctBy_cons, distinctBy_cons, List.filter_append]
    exact (List.prefix_cons_inj x).2 (ih (List.prefix_append _ _))

/-- Every key of a list is the key of a first element. -/
theorem mem_map_distinctBy {xs : List α} {k : β} :
    k ∈ (distinctBy key xs).map key ↔ k ∈ xs.map key := by
  rw [← isSome_find?_iff, ← isSome_find?_iff, find?_distinctBy key xs k]

/-- Without a key function, the first elements are the elements. -/
@[simp] theorem mem_distinctBy_id {xs : List β} {x : β} :
    x ∈ distinctBy id xs ↔ x ∈ xs := by
  have h : x ∈ (distinctBy id xs).map id ↔ x ∈ xs.map id := mem_map_distinctBy
  simpa using h

/-- The first elements are fewer than the elements, unless these are
different. -/
theorem length_distinctBy_id_eq_iff {xs : List β} :
    (distinctBy id xs).length = xs.length ↔ xs.Nodup := by
  have hsub := distinctBy_sublist id xs
  constructor
  · intro hlength
    rw [← hsub.eq_of_length hlength]
    exact nodup_distinctBy_id xs
  · intro hnodup
    have hsubset : xs ⊆ distinctBy id xs := fun x hx => mem_distinctBy_id.2 hx
    exact Nat.le_antisymm hsub.length_le (hnodup.subperm hsubset).length_le

/-- Picking some of the elements and keeping the first ones can be done in
either order. -/
theorem distinctBy_id_filter (p : β → Bool) (xs : List β) :
    distinctBy id (xs.filter p) = (distinctBy id xs).filter p := by
  induction xs using distinctBy_induction (id : β → β) with
  | nil => rfl
  | cons x rest ih =>
    rw [distinctBy_cons, List.filter_cons, List.filter_cons, ← ih]
    by_cases hp : p x = true
    · rw [if_pos hp, if_pos hp, distinctBy_cons, List.filter_filter,
        List.filter_filter]
      simp only [Bool.and_comm]
    · -- without the first, what is picked differs from it anyway
      have hrest :
          (rest.filter fun y => id y ≠ id x).filter p = rest.filter p := by
        rw [List.filter_filter]
        refine List.filter_congr fun y _ => ?_
        by_cases hy : y = x
        · simp [hy, hp]
        · simp [hy]
      rw [if_neg hp, if_neg hp, hrest]

/-- The first elements stand in the order in which they first occur. -/
theorem pairwise_idxOf_distinctBy (xs : List β) :
    (distinctBy id xs).Pairwise fun x y => xs.idxOf x < xs.idxOf y := by
  induction xs with
  | nil => exact List.Pairwise.nil
  | cons x rest ih =>
    have hne : ∀ {y : β},
        y ∈ (distinctBy id rest).filter (fun y => id y ≠ id x) → x ≠ y := by
      intro y hy hxy
      simpa [hxy] using (List.mem_filter.1 hy).2
    rw [distinctBy_cons, distinctBy_id_filter, List.pairwise_cons]
    refine ⟨fun y hy => ?_, (ih.filter _).imp_of_mem fun {y z} hy hz hlt => ?_⟩
    · rw [List.idxOf_cons_self, List.idxOf_cons_ne rest (hne hy)]
      exact Nat.succ_pos _
    · rw [List.idxOf_cons_ne rest (hne hy), List.idxOf_cons_ne rest (hne hz)]
      exact Nat.succ_lt_succ hlt

theorem distinctBy_eq_nil {xs : List α} : distinctBy key xs = [] ↔ xs = [] := by
  cases xs with
  | nil => simp [distinctBy_nil]
  | cons x rest => simp [distinctBy_cons]

end distinctBy

/-! ## Entries of the view -/

/-- An action waits for a key iff it has a trigger on its change. -/
theorem Action.mem_watchedKeys {a : Action} {key : String} :
    key ∈ a.watchedKeys ↔ .stateChange key ∈ a.triggeredBy := by
  simp only [watchedKeys, List.mem_filterMap]
  constructor
  · rintro ⟨t, ht, hkey⟩
    cases t <;> simp [Trigger.stateKey?] at hkey
    exact hkey ▸ ht
  · exact fun h => ⟨_, h, rfl⟩

namespace Mutation

/-- The first component with an id. -/
def component? (m : Mutation) (id : String) : Option Component :=
  m.components.find? (·.id == id)

/-- The first page with an id. -/
def page? (m : Mutation) (id : String) : Option Page :=
  m.pages.find? (·.id == id)

theorem action?_isSome {m : Mutation} {id : String} :
    (m.action? id).isSome ↔ id ∈ m.actions.map (·.id) := isSome_find?_iff

theorem page?_isSome {m : Mutation} {id : String} :
    (m.page? id).isSome ↔ id ∈ m.pages.map (·.id) := isSome_find?_iff

end Mutation

namespace View

/-- The actions of the snapshot. -/
def priorActions (v : View) : List Action := (v.prior.map (·.actions)).getD []

/-- The components of the snapshot. -/
def priorComponents (v : View) : List Component :=
  (v.prior.map (·.components)).getD []

/-- The pages of the snapshot. -/
def priorPages (v : View) : List Page := (v.prior.map (·.pages)).getD []

theorem mem_priorActions {v : View} {a : Action} :
    a ∈ v.priorActions ↔ ∃ s, v.prior = some s ∧ a ∈ s.actions := by
  rw [priorActions]
  cases v.prior <;> simp

theorem mem_priorPages {v : View} {p : Page} :
    p ∈ v.priorPages ↔ ∃ s, v.prior = some s ∧ p ∈ s.pages := by
  rw [priorPages]
  cases v.prior <;> simp

/-- An id stands for an action of the mutation, or else for one of the
snapshot. -/
theorem action?_eq (v : View) (id : String) :
    v.action? id
      = (v.mutation.action? id).or (v.priorActions.find? (·.id == id)) := by
  rw [action?, actions, find?_distinctBy Action.id, List.find?_append]
  rfl

theorem component?_eq (v : View) (id : String) :
    v.component? id
      = (v.mutation.component? id).or
        (v.priorComponents.find? (·.id == id)) := by
  rw [component?, components, find?_distinctBy Component.id, List.find?_append]
  rfl

theorem page?_eq (v : View) (id : String) :
    v.page? id = (v.mutation.page? id).or
      (v.priorPages.find? (·.id == id)) := by
  rw [page?, pages, find?_distinctBy Page.id, List.find?_append]
  rfl

theorem mem_actions {v : View} {a : Action} :
    a ∈ v.actions ↔ v.action? a.id = some a := by
  rw [action?, actions, find?_distinctBy Action.id]
  exact mem_distinctBy

theorem mem_components {v : View} {c : Component} :
    c ∈ v.components ↔ v.component? c.id = some c := by
  rw [component?, components, find?_distinctBy Component.id]
  exact mem_distinctBy

theorem mem_pages {v : View} {p : Page} :
    p ∈ v.pages ↔ v.page? p.id = some p := by
  rw [page?, pages, find?_distinctBy Page.id]
  exact mem_distinctBy

theorem id_of_action? {v : View} {id : String} {a : Action}
    (h : v.action? id = some a) :
    a.id = id := by
  simpa using List.find?_some h

theorem id_of_component? {v : View} {id : String} {c : Component}
    (h : v.component? id = some c) : c.id = id := by
  simpa using List.find?_some h

theorem mem_actions_of_action? {v : View} {id : String} {a : Action}
    (h : v.action? id = some a) :
    a ∈ v.actions := List.mem_of_find?_eq_some h

theorem mem_components_of_component? {v : View} {id : String} {c : Component}
    (h : v.component? id = some c) : c ∈ v.components :=
  List.mem_of_find?_eq_some h

theorem mem_pages_of_page? {v : View} {id : String} {p : Page}
    (h : v.page? id = some p) :
    p ∈ v.pages := List.mem_of_find?_eq_some h

theorem mem_actionIds {v : View} {id : String} :
    id ∈ v.actionIds ↔ (v.action? id).isSome :=
  isSome_find?_iff.symm

/-- The id of an action of the mutation stands for one of the mutation. -/
theorem action?_of_mem {v : View} {id : String}
    (h : id ∈ v.mutation.actions.map (·.id)) :
    v.action? id = v.mutation.action? id := by
  obtain ⟨a, ha⟩ := Option.isSome_iff_exists.1 (Mutation.action?_isSome.2 h)
  rw [action?_eq, ha, Option.some_or]

/-- The ids of the mutation's actions are ids of the view. -/
theorem id_mem_actionIds {v : View} {a : Action} (h : a ∈ v.mutation.actions) :
    a.id ∈ v.actionIds := by
  have hid : a.id ∈ v.mutation.actions.map (·.id) := List.mem_map_of_mem h
  rw [mem_actionIds, action?_of_mem hid]
  exact Mutation.action?_isSome.2 hid

/-- Of actions with different ids none hides another. -/
theorem mem_actions_of_distinct {v : View}
    (hdistinct : (v.mutation.actions.map (·.id)).Nodup) {a : Action}
    (ha : a ∈ v.mutation.actions) : a ∈ v.actions := by
  rw [mem_actions, action?_of_mem (List.mem_map_of_mem ha)]
  exact find?_eq_some_of_nodup hdistinct ha

/-- The listeners of a key are the ids whose action waits for it. -/
theorem mem_listeners {v : View} {key id : String} :
    id ∈ v.listeners key ↔ ∃ a, v.action? id = some a
      ∧ key ∈ a.watchedKeys := by
  simp only [listeners, List.mem_flatMap, List.mem_map, List.mem_filter,
    decide_eq_true_eq]
  constructor
  · rintro ⟨a, ha, _, ⟨hwatch, rfl⟩, rfl⟩
    exact ⟨a, mem_actions.1 ha, hwatch⟩
  · rintro ⟨a, ha, hwatch⟩
    exact ⟨a, mem_actions_of_action? ha, key, ⟨hwatch, rfl⟩, id_of_action? ha⟩

/-- A key is consumed when a component renders it or another action depends on
it. -/
theorem isConsumed_iff {v : View} {key except : String} :
    v.isConsumed key except = true ↔
      (∃ c ∈ v.components, key ∈ c.readKeys)
        ∨ ∃ a ∈ v.actions, a.id ≠ except ∧ key ∈ a.readKeys := by
  simp [isConsumed]

end View

end IntentGraph
