import IntentGraph.Proofs.Identifier
import Mathlib.Order.Bounds.Basic

/-!
# The search for a fresh id

A fresh id is sought among the canonical spelling of its base and, where that is
taken, the spellings with `_2`, `_3`, … behind it. No number is the last one to
be tried: `SearchEnds` is the search as it goes on, one step for every id that
is taken. `freshId` looks at no more numbers than there are ids taken, and loses
nothing by it.

* `searchEnds_iff_isLeast`: a search ends with the least number that is free,
  and with no other.
* `exists_searchEnds`: it ends, if there is a free number at all.
* `SearchEnds.le`: it ends after no more steps than ids are taken.
* `View.freshId_exact`: what a fresh id of a view is.
-/

namespace IntentGraph

/-! ## The search -/

/-- The search for a number that no taken id has behind it ends: from a free
number on with that one, and from any other on with what the search from the
next one ends with. -/
inductive SearchEnds (taken : List String) (id : String) :
    (start found : Nat) → Prop
  | free {n : Nat} : id ++ "_" ++ toString n ∉ taken → SearchEnds taken id n n
  | next {n found : Nat} : id ++ "_" ++ toString n ∈ taken →
    SearchEnds taken id (n + 1) found → SearchEnds taken id n found

variable {taken : List String} {id : String} {start found : Nat}

/-- A search ends with the least number that is free. -/
theorem SearchEnds.isLeast (h : SearchEnds taken id start found) :
    IsLeast {n | start ≤ n ∧ id ++ "_" ++ toString n ∉ taken} found := by
  induction h with
  | free hfree => exact ⟨⟨Nat.le_refl _, hfree⟩, fun n hn => hn.1⟩
  | @next start found htaken _ ih =>
    obtain ⟨⟨hle, hfree⟩, hleast⟩ := ih
    refine ⟨⟨Nat.le_of_succ_le hle, hfree⟩, fun n ⟨hstart, hn⟩ =>
      hleast ⟨?_, hn⟩⟩
    refine Nat.lt_of_le_of_ne hstart ?_
    rintro rfl
    exact hn htaken

/-- A search ends before it comes past a number that is free. -/
theorem exists_searchEnds {free : Nat} (hle : start ≤ free)
    (hfree : id ++ "_" ++ toString free ∉ taken) :
    ∃ found, SearchEnds taken id start found := by
  induction hle using Nat.decreasingInduction with
  | of_succ n _ ih =>
    by_cases hn : id ++ "_" ++ toString n ∈ taken
    · obtain ⟨found, hfound⟩ := ih
      exact ⟨found, .next hn hfound⟩
    · exact ⟨n, .free hn⟩
  | self => exact ⟨free, .free hfree⟩

theorem searchEnds_iff_isLeast :
    SearchEnds taken id start found
      ↔ IsLeast {n | start ≤ n ∧ id ++ "_" ++ toString n ∉ taken} found := by
  constructor
  · exact SearchEnds.isLeast
  · intro hleast
    obtain ⟨found', hfound'⟩ := exists_searchEnds hleast.1.1 hleast.1.2
    rwa [hleast.unique hfound'.isLeast]

/-- An id and the ids that a search from `2` on finds taken are all different,
so that a search does not get past their number. -/
theorem SearchEnds.le (hid : id ∈ taken) (h : SearchEnds taken id 2 found) :
    found ≤ taken.length + 1 := by
  have htaken : ∀ n < found - 2, numberedId id n ∈ taken := by
    intro n hn
    by_contra hfree
    have hle := h.isLeast.2 ⟨Nat.le_add_left 2 n, hfree⟩
    omega
  have hne : id ∉ (List.range (found - 2)).map (numberedId id) := by
    intro hmem
    obtain ⟨n, _, hn⟩ := List.mem_map.1 hmem
    have hlength := congrArg String.length hn
    simp only [numberedId, String.length_append] at hlength
    have hline : "_".length = 1 := rfl
    omega
  -- so many different ids fit in the list only if it is as long
  have hnodup : (id :: (List.range (found - 2)).map (numberedId id)).Nodup :=
    List.nodup_cons.2 ⟨hne, List.nodup_range.map (numberedId_injective id)⟩
  have hsubset :
      id :: (List.range (found - 2)).map (numberedId id) ⊆ taken := by
    refine List.cons_subset.2 ⟨hid, fun candidate hcandidate => ?_⟩
    obtain ⟨n, hn, rfl⟩ := List.mem_map.1 hcandidate
    exact htaken n (List.mem_range.1 hn)
  have hle := hnodup.length_le_of_subset hsubset
  simp only [List.length_cons, List.length_map, List.length_range] at hle
  omega

/-! ## Fresh ids -/

theorem freshId_of_not_mem {base : String} (h : canonicalId base ∉ taken) :
    freshId taken base = canonicalId base := by
  rw [freshId_eq, if_neg h]

/-- Where the spelling of a base is taken, its fresh id has the number behind it
that the search from `2` on ends with. -/
theorem exists_freshId_of_mem {base : String} (h : canonicalId base ∈ taken) :
    ∃ found, SearchEnds taken (canonicalId base) 2 found
      ∧ freshId taken base = canonicalId base ++ "_" ++ toString found := by
  obtain ⟨candidate, hfind⟩ :=
    Option.isSome_iff_exists.1
      (find?_numberedId_isSome taken (canonicalId base))
  have hfresh : freshId taken base = candidate := by
    rw [freshId_eq, if_pos h, hfind, Option.getD_some]
  rw [List.find?_map] at hfind
  obtain ⟨n, hn, rfl⟩ := Option.map_eq_some_iff.1 hfind
  obtain ⟨hfree, _, hbefore⟩ := List.find?_range_eq_some.1 hn
  refine ⟨n + 2,
    searchEnds_iff_isLeast.2 ⟨⟨Nat.le_add_left 2 n, ?_⟩, ?_⟩, hfresh⟩
  · simpa [numberedId] using hfree
  · rintro m ⟨hm, hmfree⟩
    by_contra hlt
    -- the number stands at `m - 2` among the candidates
    have htaken := hbefore (m - 2) (by omega)
    simp only [Function.comp_apply, Bool.not_not,
      List.contains_iff_mem, numberedId, Nat.sub_add_cancel hm] at htaken
    exact hmfree htaken

/-! ## Fresh ids of a view -/

namespace View

/-- No action of the view has the id. -/
def IsFree (v : View) (id : String) : Prop := ∀ a ∈ v.actions, a.id ≠ id

theorem isFree_iff {v : View} {id : String} :
    v.IsFree id ↔ id ∉ v.actionIds := by
  simp [IsFree, actionIds]

/-- A fresh id of a view is canonical, and no action of the view has it. It is
the canonical spelling of its base, if that is free. If not, a number stands
behind that spelling: the least from `2` on with which it is free, which the
search for one finds, past no more numbers than there are actions. -/
theorem freshId_exact (v : View) (base : String) :
    (∀ c ∈ (freshId v.actionIds base).toList, c ∈ idAlphabet)
      ∧ v.IsFree (freshId v.actionIds base)
      ∧ (v.IsFree (canonicalId base) → freshId v.actionIds base
        = canonicalId base)
      ∧ (¬ v.IsFree (canonicalId base) → ∃ n,
        SearchEnds v.actionIds (canonicalId base) 2 n
          ∧ IsLeast {n | 2 ≤ n
            ∧ v.IsFree (canonicalId base ++ "_" ++ toString n)} n
          ∧ n ≤ v.actions.length + 1
          ∧ freshId v.actionIds base = canonicalId base ++ "_"
            ++ toString n) := by
  simp only [isFree_iff, not_not]
  refine ⟨isCanonical_iff.1 (isCanonical_freshId _ _), freshId_not_mem _ _,
    freshId_of_not_mem, ?_⟩
  intro htaken
  obtain ⟨n, hsearch, hfresh⟩ := exists_freshId_of_mem htaken
  have hle := hsearch.le htaken
  rw [actionIds, List.length_map] at hle
  exact ⟨n, hsearch, hsearch.isLeast, hle, hfresh⟩

/-- An action under an id that is asked for, one under the id with a number, and
one of the snapshot under the id with the next number but one. -/
def numberedRows : View where
  mutation := { Mutation.empty with
    actionsAdded := [Action.bare "rows" .workflow]
    actionsUpdated := [Action.bare "rows_2" .internal] }
  prior := some { Snapshot.empty with
    actions := [Action.bare "rows_4" .navigation] }

example : freshId numberedRows.actionIds " Rows! " = "rows_3"
    ∧ freshId numberedRows.actionIds "Rows 5" = "rows_5" := by
  decide +kernel

end View

end IntentGraph
