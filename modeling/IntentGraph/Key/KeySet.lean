/-!
# Sets of keys

A set of state keys or ids is its members in code point order, each once. The
order is part of the set (`KeySet.ascending`), so two sets with the same
members are equal and iteration is in order.

* `KeySet.mem_ofList` — a set built from a list has exactly the list's members.
* `KeySet.head?_eq_some_iff` — the first member is the least.
-/

namespace IntentGraph

/-- An ascending list of keys with one more key. -/
def insertKey (key : String) : List String → List String
  | [] => [key]
  | k :: rest =>
    if key < k then key :: k :: rest
    else if key = k then k :: rest
    else k :: insertKey key rest

@[simp]
theorem mem_insertKey {a key : String} {keys : List String} :
    a ∈ insertKey key keys ↔ a = key ∨ a ∈ keys := by
  induction keys with
  | nil => simp [insertKey]
  | cons k rest ih =>
    unfold insertKey
    split
    · exact List.mem_cons
    · split
      · next hkey => simp [hkey]
      · rw [List.mem_cons, ih, List.mem_cons]
        exact or_left_comm

/-- Insertion keeps the order. -/
theorem pairwise_insertKey {key : String} {keys : List String}
    (h : keys.Pairwise (· < ·)) : (insertKey key keys).Pairwise (· < ·) := by
  induction keys with
  | nil => exact List.pairwise_singleton _ _
  | cons k rest ih =>
    have ⟨hbefore, hrest⟩ := List.pairwise_cons.1 h
    unfold insertKey
    split
    · next hlt =>
      refine List.pairwise_cons.2 ⟨fun a ha => ?_, h⟩
      rcases List.mem_cons.1 ha with rfl | ha
      · exact hlt
      · exact String.lt_trans hlt (hbefore a ha)
    · split
      · exact h
      · next hnlt hne =>
        refine List.pairwise_cons.2 ⟨fun a ha => ?_, ih hrest⟩
        rcases mem_insertKey.1 ha with rfl | ha
        · -- neither before nor at `k`, so after it
          have hle : k ≤ a := String.not_lt.1 hnlt
          exact Decidable.byContradiction fun hnot =>
            hne (String.le_antisymm (String.not_lt.1 hnot) hle)
        · exact hbefore a ha

/-- A set of keys: its members, each once and in ascending order. -/
@[ext]
structure KeySet where
  members : List String
  ascending : members.Pairwise (· < ·)
  deriving DecidableEq

namespace KeySet

instance : Coe KeySet (List String) := ⟨members⟩

instance : Membership String KeySet := ⟨fun s key => key ∈ s.members⟩

instance (key : String) (s : KeySet) : Decidable (key ∈ s) :=
  inferInstanceAs (Decidable (key ∈ s.members))

instance : EmptyCollection KeySet := ⟨⟨[], .nil⟩⟩

/-- The set with one more member. -/
def insert (key : String) (s : KeySet) : KeySet :=
  ⟨insertKey key s.members, pairwise_insertKey s.ascending⟩

/-- The set of the members of a list. -/
def ofList (keys : List String) : KeySet := keys.foldr insert ∅

/-- Whether a key is a member. -/
def contains (s : KeySet) (key : String) : Bool := s.members.contains key

section Membership

variable {a key : String} {s : KeySet} {keys : List String}

@[simp] theorem mem_members : key ∈ s.members ↔ key ∈ s := Iff.rfl

@[simp] theorem not_mem_empty : key ∉ (∅ : KeySet) := List.not_mem_nil

@[simp] theorem members_empty : (∅ : KeySet).members = [] := rfl

@[simp] theorem contains_iff_mem : s.contains key = true ↔ key ∈ s :=
  List.contains_iff_mem

@[simp] theorem members_eq_nil : s.members = [] ↔ s = ∅ :=
  Iff.symm (@KeySet.ext_iff s ∅)

theorem mem_insert : a ∈ insert key s ↔ a = key ∨ a ∈ s := mem_insertKey

@[simp] theorem mem_ofList : a ∈ ofList keys ↔ a ∈ keys := by
  induction keys with
  | nil => exact Iff.rfl
  | cons k rest ih =>
    rw [ofList, List.foldr_cons, mem_insert, ← ofList, ih, List.mem_cons]

theorem ofList_eq_empty_iff : ofList keys = ∅ ↔ keys = [] := by
  simp only [← members_eq_nil, List.eq_nil_iff_forall_not_mem, mem_members,
    mem_ofList]

/-- The first member of a set is its least. -/
theorem head?_eq_some_iff : s.members.head? = some key ↔
    key ∈ s ∧ ∀ k ∈ s, k ≠ key → key < k := by
  simp only [← mem_members]
  have hascending := s.ascending
  cases hmembers : s.members with
  | nil => simp
  | cons first rest =>
    rw [hmembers, List.pairwise_cons] at hascending
    rw [List.head?_cons, Option.some.injEq]
    constructor
    · rintro rfl
      refine ⟨List.mem_cons_self, fun k hk hne => ?_⟩
      exact hascending.1 k ((List.mem_cons.1 hk).resolve_left hne)
    · rintro ⟨hmem, hleast⟩
      rcases List.mem_cons.1 hmem with rfl | hmem
      · rfl
      · -- a later member has `first` before it, and would be before `first`
        refine Decidable.byContradiction fun hne => String.lt_irrefl key ?_
        exact String.lt_trans (hleast first List.mem_cons_self hne)
          (hascending.1 key hmem)

end Membership

end KeySet

end IntentGraph
