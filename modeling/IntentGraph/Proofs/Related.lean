import Mathlib.Data.List.Forall2

/-!
# Related lists and related lookups

A pass that changes entries in place relates the lists before and after element
by element. When the relation keeps the key of an entry, it also relates what a
key stands for (`rel_find?_of_forall₂`), and that is all that a view sees.
-/

namespace IntentGraph

/-! ## Members -/

section members

variable {α β : Type} {R : α → β → Prop} {xs : List α} {ys : List β}

theorem mem_right_of_forall₂ (h : List.Forall₂ R xs ys) {y : β} (hy : y ∈ ys) :
    ∃ x ∈ xs, R x y := by
  induction h with
  | nil => cases hy
  | cons hxy _ ih =>
    rcases List.mem_cons.1 hy with rfl | hy
    · exact ⟨_, List.mem_cons_self, hxy⟩
    · obtain ⟨x, hx, hr⟩ := ih hy
      exact ⟨x, List.mem_cons_of_mem _ hx, hr⟩

theorem mem_left_of_forall₂ (h : List.Forall₂ R xs ys) {x : α} (hx : x ∈ xs) :
    ∃ y ∈ ys, R x y := by
  obtain ⟨y, hy, hr⟩ := mem_right_of_forall₂ h.flip hx
  exact ⟨y, hy, hr⟩

end members

variable {α : Type} {R : α → α → Prop}

/-! ## Lists -/

section lists

variable {xs ys zs : List α}

theorem forall₂_trans {S T : α → α → Prop} (h : List.Forall₂ R xs ys)
    (h' : List.Forall₂ S ys zs) (trans : ∀ x y z, R x y → S y z → T x z) :
    List.Forall₂ T xs zs := by
  induction h generalizing zs with
  | nil =>
    cases h'
    exact .nil
  | cons hxy _ ih =>
    cases h' with
    | cons hyz hrest => exact .cons (trans _ _ _ hxy hyz) (ih hrest)

/-- What is related to two lists in a row falls apart into two lists. -/
theorem exists_append_of_forall₂ (h : List.Forall₂ R (xs ++ ys) zs) :
    ∃ xs' ys', zs = xs' ++ ys' ∧ List.Forall₂ R xs xs'
      ∧ List.Forall₂ R ys ys' := by
  induction xs generalizing zs with
  | nil => exact ⟨[], zs, rfl, .nil, h⟩
  | cons x xs ih =>
    cases h with
    | cons hx hrest =>
      obtain ⟨xs', ys', rfl, hxs, hys⟩ := ih hrest
      exact ⟨_ :: xs', ys', rfl, .cons hx hxs, hys⟩

/-- A relation that keeps a key relates what a key stands for. -/
theorem rel_find?_of_forall₂ (key : α → String)
    (keeps : ∀ x y, R x y → key y = key x) (h : List.Forall₂ R xs ys)
    (k : String) :
    Option.Rel R (xs.find? (key · == k)) (ys.find? (key · == k)) := by
  induction h with
  | nil => exact .none
  | @cons x y _ _ hxy _ ih =>
    rw [List.find?_cons, List.find?_cons, keeps x y hxy]
    cases key x == k with
    | true => exact .some hxy
    | false => exact ih

theorem map_key_of_forall₂ {β : Type} {key : α → β}
    (keeps : ∀ x y, R x y → key y = key x) (h : List.Forall₂ R xs ys) :
    ys.map key = xs.map key := by
  induction h with
  | nil => rfl
  | cons hxy _ ih => rw [List.map_cons, List.map_cons, keeps _ _ hxy, ih]

end lists

/-! ## Lookups -/

section lookups

theorem rel_or {a a' b b' : Option α} (h : Option.Rel R a a')
    (h' : Option.Rel R b b') :
    Option.Rel R (a.or b) (a'.or b') := by
  cases h with
  | none => exact h'
  | some hr => exact .some hr

theorem rel_refl (refl : ∀ x, R x x) (a : Option α) : Option.Rel R a a := by
  cases a with
  | none => exact .none
  | some x => exact .some (refl x)

theorem rel_map {f : α → α} (step : ∀ x, R x (f x)) (a : Option α) :
    Option.Rel R a (a.map f) := by
  cases a with
  | none => exact .none
  | some x => exact .some (step x)

theorem rel_trans {S T : α → α → Prop} (trans : ∀ x y z, R x y → S y z → T x z)
    {a b c : Option α} (h : Option.Rel R a b) (h' : Option.Rel S b c) :
    Option.Rel T a c := by
  cases h with
  | none =>
    cases h'
    exact .none
  | some hr =>
    cases h' with
    | some hr' => exact .some (trans _ _ _ hr hr')

theorem rel_imp {S : α → α → Prop} (imp : ∀ x y, R x y → S x y) {a b : Option α}
    (h : Option.Rel R a b) : Option.Rel S a b := by
  cases h with
  | none => exact .none
  | some hr => exact .some (imp _ _ hr)

theorem isSome_eq_of_rel {a b : Option α} (h : Option.Rel R a b) :
    b.isSome = a.isSome := by
  cases h <;> rfl

theorem exists_of_rel_left {a a' : Option α} (h : Option.Rel R a a') {x : α}
    (hx : a = some x) :
    ∃ y, a' = some y ∧ R x y := by
  cases h with
  | none => cases hx
  | some hr =>
    cases hx
    exact ⟨_, rfl, hr⟩

theorem exists_of_rel_right {a a' : Option α} (h : Option.Rel R a a') {y : α}
    (hy : a' = some y) : ∃ x, a = some x ∧ R x y := by
  cases h with
  | none => cases hy
  | some hr =>
    cases hy
    exact ⟨_, rfl, hr⟩

end lookups

end IntentGraph
