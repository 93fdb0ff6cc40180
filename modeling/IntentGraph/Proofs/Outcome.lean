import Mathlib.Data.List.Forall2
import Mathlib.Data.List.Perm.Basic

/-!
# Outcomes

How a computation that may fail comes apart: a bind that succeeds has two parts
that do, and a list is worked through iff each of its items is. Items that can
change places two by two can be worked in in any order
(`foldlM_eq_ok_iff_of_perm`).
-/

namespace IntentGraph

variable {ε ε' α β : Type}

/-- A bind that succeeds has two parts that do. -/
theorem exists_of_bind_eq_ok {x : Except ε α} {f : α → Except ε β} {b : β}
    (h : (x >>= f) = .ok b) : ∃ a, x = .ok a ∧ f a = .ok b := by
  cases x with
  | error e => cases h
  | ok a => exact ⟨a, rfl, h⟩

/-- A bind of two parts that succeed does. -/
theorem exists_bind_eq_ok {x : Except ε α} {f : α → Except ε β} {a : α}
    (hx : x = .ok a) (h : ∃ b, f a = .ok b) : ∃ b, (x >>= f) = .ok b := hx ▸ h

theorem bind_eq_error {x : Except ε α} {f : α → Except ε β} {e : ε}
    (hx : x = .error e) : (x >>= f) = .error e := hx ▸ rfl

theorem eq_ok_of_mapError {x : Except ε α} {f : ε → ε'} {a : α}
    (h : x.mapError f = .ok a) : x = .ok a := by
  cases x with
  | error e => cases h
  | ok b =>
    cases h
    rfl

theorem exists_of_map_eq_ok {x : Except ε α} {f : α → β} {b : β}
    (h : x.map f = .ok b) :
    ∃ a, x = .ok a ∧ f a = b := by
  cases x with
  | error e => cases h
  | ok a => exact ⟨a, rfl, Except.ok.inj h⟩

theorem mapM_eq_ok_iff {f : α → Except ε β} {xs : List α} {ys : List β} :
    xs.mapM f = .ok ys ↔ List.Forall₂ (fun x y => f x = .ok y) xs ys := by
  induction xs generalizing ys with
  | nil =>
    rw [List.mapM_nil, List.forall₂_nil_left_iff]
    exact ⟨fun h => (Except.ok.inj h).symm, fun h => congrArg Except.ok h.symm⟩
  | cons x xs ih =>
    rw [List.mapM_cons, List.forall₂_cons_left_iff]
    constructor
    · intro h
      obtain ⟨y, hy, h⟩ := exists_of_bind_eq_ok h
      obtain ⟨rest, hrest, h⟩ := exists_of_bind_eq_ok h
      exact ⟨y, rest, hy, ih.1 hrest, (Except.ok.inj h).symm⟩
    · rintro ⟨y, rest, hy, hrest, rfl⟩
      rw [hy, ih.2 hrest]
      rfl

/-- Two items can be worked in one after the other in either order. -/
def Interchangeable (f : α → β → Except ε α) (a b : β) : Prop :=
  ∀ d x, (f d a >>= fun d => f d b) = .ok x ↔ (f d b >>= fun d => f d a) = .ok x

theorem Interchangeable.symm {f : α → β → Except ε α} {a b : β}
    (h : Interchangeable f a b) :
    Interchangeable f b a := fun d x => (h d x).symm

/-- Interchangeable items can be worked in in any order. -/
theorem foldlM_eq_ok_iff_of_perm {f : α → β → Except ε α} {xs ys : List β}
    (hperm : xs.Perm ys) (h : xs.Pairwise (Interchangeable f)) {d x : α} :
    xs.foldlM f d = .ok x ↔ ys.foldlM f d = .ok x := by
  induction hperm generalizing d with
  | nil => rfl
  | cons a hperm ih =>
    rw [List.foldlM_cons, List.foldlM_cons]
    cases f d a with
    | error e => exact Iff.rfl
    | ok d => exact ih (List.pairwise_cons.1 h).2
  | swap a b rest =>
    have hswap := (List.pairwise_cons.1 h).1 a List.mem_cons_self
    have hpair : ∀ {a b : β}, Interchangeable f a b →
        (a :: b :: rest).foldlM f d = .ok x →
          (b :: a :: rest).foldlM f d = .ok x := by
      intro a b hab hok
      simp only [List.foldlM_cons, ← bind_assoc] at hok ⊢
      obtain ⟨d', hd', hrest⟩ := exists_of_bind_eq_ok hok
      rw [(hab d d').1 hd']
      exact hrest
    exact ⟨hpair hswap, hpair hswap.symm⟩
  | trans hxy hyz ihxy ihyz =>
    exact (ihxy h).trans (ihyz ((hxy.pairwise_iff Interchangeable.symm).1 h))

end IntentGraph
