import IntentGraph.Proofs.Repair.Binding

/-!
# Reading over a snapshot and writing to the mutation

Whatever is asked of a document is asked of the merged view, in which every id
stands for one entry. What is written goes to the lists of the mutation, where
ids may repeat, and to the first entry that fits. `Shadows` says outright which
entries a view shows of two lists, and `WritesThrough` that an edit by id
reaches the entry that the id stands for, so that what was written is what is
read.

* `shadows_distinctBy`: the first entries of every id, of both lists read as
  one;
* `writesThrough_of_modifyFirst?`: an edit of the first entry that fits, for
  whatever is resolved in the mutation before it is resolved elsewhere.

Both kinds of entries that repair edits are of this sort: `View.edits_resolved`.
-/

namespace IntentGraph

section lists

variable {α : Type} {key : α → String} {xs own own' prior : List α} {x : α}

/-! ## Entries that come first -/

/-- An entry of a list before which none has its key. -/
def IsFirst (key : α → String) (xs : List α) (x : α) : Prop :=
  ∃ before after, xs = before ++ x :: after ∧ key x ∉ before.map key

/-- The first entry with its key is what its key stands for. -/
theorem isFirst_iff :
    IsFirst key xs x ↔ xs.find? (key · == key x) = some x := by
  rw [List.find?_eq_some_iff_append]
  constructor
  · rintro ⟨before, after, rfl, hbefore⟩
    refine ⟨by simp, before, after, rfl, fun y hy => ?_⟩
    have hne : key y ≠ key x :=
      fun heq => hbefore (heq ▸ List.mem_map_of_mem hy)
    simpa using hne
  · rintro ⟨_, before, after, rfl, hbefore⟩
    refine ⟨before, after, rfl, fun hmem => ?_⟩
    obtain ⟨y, hy, heq⟩ := List.mem_map.1 hmem
    simpa [heq] using hbefore y hy

/-! ## Shadowing -/

/-- What is shown of entries of which the own ones shadow the prior ones. Every
key that there is stands once, at the place where it first occurs. It is shown
by the first of the own entries that has it, and behind all of these by the
first of the prior entries, if no own entry has it. -/
structure Shadows (key : α → String) (own prior shown : List α) : Prop where
  once : (shown.map key).Nodup
  complete : ∀ k, k ∈ shown.map key ↔ k ∈ own.map key ∨ k ∈ prior.map key
  chosen : ∃ front back, shown = front ++ back
    ∧ (∀ x ∈ front, IsFirst key own x)
    ∧ ∀ x ∈ back, key x ∉ own.map key ∧ IsFirst key prior x
  ordered : (shown.map key).Pairwise fun j k =>
    ((own ++ prior).map key).idxOf j < ((own ++ prior).map key).idxOf k

/-- The keys of the first entries of every key are the keys, each once. -/
theorem map_distinctBy (key : α → String) (xs : List α) :
    (distinctBy key xs).map key = distinctBy id (xs.map key) := by
  induction xs using distinctBy_induction key with
  | nil => rfl
  | cons x rest ih =>
    rw [distinctBy_cons, List.map_cons, ih, List.map_cons, distinctBy_cons,
      List.filter_map]
    rfl

/-- The first entries of every key, of the own ones and the prior ones behind
them. -/
theorem shadows_distinctBy (key : α → String) (own prior : List α) :
    Shadows key own prior (distinctBy key (own ++ prior)) where
  once := nodup_map_distinctBy key _
  complete k := by rw [mem_map_distinctBy, List.map_append, List.mem_append]
  chosen := by
    have hprefix : distinctBy key own <+: distinctBy key (own ++ prior) :=
      distinctBy_prefix (List.prefix_append own prior)
    obtain ⟨back, hback⟩ := hprefix
    refine ⟨distinctBy key own, back, hback.symm,
      fun x hx => isFirst_iff.2 (mem_distinctBy.1 hx), fun x hx => ?_⟩
    -- the keys of the own entries are used up before the rest begins
    have hnot : key x ∉ own.map key := by
      have hnodup := nodup_map_distinctBy key (own ++ prior)
      rw [← hback, List.map_append, List.nodup_append'] at hnodup
      exact fun hown =>
        hnodup.2.2 (mem_map_distinctBy.2 hown) (List.mem_map_of_mem hx)
    have hfound :=
      mem_distinctBy.1 (hback ▸ List.mem_append_right (distinctBy key own) hx)
    rw [List.find?_append, find?_key_eq_none.2 hnot, Option.none_or] at hfound
    exact ⟨hnot, isFirst_iff.2 hfound⟩
  ordered := by
    rw [map_distinctBy]
    exact pairwise_idxOf_distinctBy _

/-! ## Edits -/

/-- The lists differ in one entry, which is the first with its key. -/
def EditedAt (key : α → String) (f : α → α) (x : α) (own own' : List α) :
    Prop :=
  ∃ before after, own = before ++ x :: after ∧ key x ∉ before.map key
    ∧ own' = before ++ f x :: after

/-- A change of the first element with a key changes what the key stands for. -/
theorem modifyFirst?_of_find? {k : String}
    (h : own.find? (key · == k) = some x) (f : α → α) :
    ∃ own', Mutation.modifyFirst? (key · == k) f own = some own'
      ∧ EditedAt key f x own own' := by
  obtain rfl : key x = k := by simpa using List.find?_some h
  obtain ⟨before, after, rfl, hbefore⟩ := isFirst_iff.2 h
  have hskip : Mutation.modifyFirst? (key · == key x) f before = none :=
    modifyFirst?_eq_none.2 (find?_key_eq_none.2 hbefore)
  refine ⟨before ++ f x :: after, ?_, before, after, rfl, hbefore, rfl⟩
  rw [modifyFirst?_append, hskip]
  simp [Mutation.modifyFirst?]

end lists

/-- An edit by id reaches the entry that the id stands for and no other, of a
mutation that has an entry with the id. Where it leaves ids alone, the id then
stands for what was made of the entry, and all others for what they stood
for. -/
def WritesThrough {α : Type} (key : α → String) (entries : Mutation → List α)
    (edit? : Mutation → String → (α → α) → Option Mutation)
    (resolve? : Mutation → String → Option α) (m : Mutation) : Prop :=
  ∀ id ∈ (entries m).map key, ∀ f : α → α, ∃ x m', resolve? m id = some x
    ∧ edit? m id f = some m' ∧ EditedAt key f x (entries m) (entries m')
    ∧ ((∀ y, key (f y) = key y) → ∀ j, resolve? m' j = if j = id then some (f x)
      else resolve? m j)

/-- Edits of the first entry with an id write through to ids that are resolved
in the mutation, and only then elsewhere. -/
theorem writesThrough_of_modifyFirst? {α : Type} {key : α → String}
    {entries : Mutation → List α}
    {edit? : Mutation → String → (α → α) → Option Mutation}
    {resolve? : Mutation → String → Option α} {elsewhere : String → Option α}
    (hedit : ∀ m id f, (edit? m id f).map entries
      = Mutation.modifyFirst? (key · == id) f (entries m))
    (hresolve : ∀ m id, resolve? m id
      = ((entries m).find? (key · == id)).or (elsewhere id)) (m : Mutation) :
    WritesThrough key entries edit? resolve? m := by
  intro id hid f
  obtain ⟨x, hx⟩ := Option.isSome_iff_exists.1 (isSome_find?_iff.2 hid)
  obtain ⟨own', hmodify, hat⟩ := modifyFirst?_of_find? hx f
  obtain ⟨m', hm', rfl⟩ :=
    Option.map_eq_some_iff.1 ((hedit m id f).trans hmodify)
  refine ⟨x, m', by rw [hresolve, hx, Option.some_or], hm', hat,
    fun keeps j => ?_⟩
  rw [hresolve m' j, hresolve m j]
  by_cases hj : j = id
  · subst hj
    rw [if_pos rfl, find?_modifyFirst? (fun y => by rw [keeps]) hmodify, hx]
    rfl
  · rw [if_neg hj, find?_modifyFirst?_of_ne keeps hj hmodify]

/-! ## The merged view -/

namespace View

/-- A view shows every id of its mutation and its snapshot once, and lets the
entries of the mutation shadow those of the snapshot. What an edit of an action
or a page of the mutation changes is what the view resolves its id to. -/
theorem edits_resolved (m : Mutation) (prior : Option Snapshot) :
    let v : View := ⟨m, prior⟩
    (Shadows Action.id m.actions v.priorActions v.actions
      ∧ Shadows Component.id m.components v.priorComponents v.components
      ∧ Shadows Page.id m.pages v.priorPages v.pages)
    ∧ WritesThrough Action.id Mutation.actions Mutation.modifyAction?
        (fun m => (View.mk m prior).action?) m
    ∧ WritesThrough Page.id Mutation.pages Mutation.modifyPage?
        (fun m => (View.mk m prior).page?) m := by
  intro v
  have haction :
      ∀ m id, (View.mk m prior).action? id
        = (m.actions.find? (·.id == id)).or
          (v.priorActions.find? (·.id == id)) :=
    fun m id => action?_eq ⟨m, prior⟩ id
  have hpage :
      ∀ m id, (View.mk m prior).page? id
        = (m.pages.find? (·.id == id)).or (v.priorPages.find? (·.id == id)) :=
    fun m id => page?_eq ⟨m, prior⟩ id
  refine ⟨⟨?_, ?_, ?_⟩, ?_, ?_⟩
  · exact shadows_distinctBy Action.id m.actions v.priorActions
  · exact shadows_distinctBy Component.id m.components v.priorComponents
  · exact shadows_distinctBy Page.id m.pages v.priorPages
  · exact writesThrough_of_modifyFirst? Mutation.actions_modifyAction? haction m
  · exact writesThrough_of_modifyFirst? Mutation.pages_modifyPage? hpage m

/-- An action that is added and updated, over one of the snapshot, with others
between. -/
def resaved : View where
  mutation := { Mutation.empty with
    actionsAdded := [Action.bare "save" .workflow]
    actionsUpdated :=
      [Action.bare "load" .integrationCall, Action.bare "save" .internal] }
  prior := some { Snapshot.empty with
    actions := [Action.bare "print" .navigation,
      Action.bare "save" .navigation] }

/-- The added one stands for the id, and is the one that is edited. -/
example : resaved.actions
    = [Action.bare "save" .workflow, Action.bare "load" .integrationCall,
      Action.bare "print" .navigation]
    ∧ (resaved.mutation.modifyAction? "save"
      (Action.addTrigger (.internal "again"))).map
        (·.actionsAdded) = some [{ Action.bare "save" .workflow with
          triggeredBy := [.internal "again"] }] := by
  decide

end View

end IntentGraph
