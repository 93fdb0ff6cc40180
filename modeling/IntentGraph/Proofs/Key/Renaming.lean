import IntentGraph.Proofs.Json
import IntentGraph.Proofs.Key.Template

/-!
# Renaming inside values

A reference can name any identifier with dotted segments behind it, and nothing
else (`isKey_iff`). A rename to such a key goes through every string inside a
value, however deep it is nested, and does there what it says
(`keysOf_renameIn`): the old key is gone, so there is nothing left to do for a
second rename, and a value that does not refer to the old key is left alone.
-/

namespace IntentGraph.Template

/-! ## The keys that a reference can name -/

/-- A text of key characters, at least one. -/
def IsSegment (cs : List Char) : Prop := cs ≠ [] ∧ ∀ c ∈ cs, isKeyChar c = true

/-- An identifier, which starts with no digit, and dotted segments behind it. -/
def IsDotted (cs : List Char) : Prop :=
  ∃ (identifier : List Char) (segments : List (List Char)), IsSegment identifier
    ∧ (∀ c ∈ identifier.head?, isKeyStart c = true)
    ∧ (∀ segment ∈ segments, IsSegment segment)
    ∧ cs = identifier ++ segments.flatMap ('.' :: ·)

/-- What is cut off as a key to the end of a text are key characters and dotted
segments. -/
theorem exists_segments {cs : List Char} (h : (splitKey cs).2 = []) :
    ∃ (word : List Char) (segments : List (List Char)),
      (∀ c ∈ word, isKeyChar c = true)
      ∧ (∀ segment ∈ segments, IsSegment segment)
      ∧ cs = word ++ segments.flatMap ('.' :: ·) := by
  induction cs with
  | nil => exact ⟨[], [], List.forall_mem_nil _, List.forall_mem_nil _, rfl⟩
  | cons c rest ih =>
    rw [splitKey] at h
    split at h
    · next hc =>
      obtain ⟨word, segments, hword, hsegments, hrest⟩ := ih h
      by_cases hchar : isKeyChar c = true
      · refine ⟨c :: word, segments, List.forall_mem_cons.2 ⟨hchar, hword⟩,
          hsegments, ?_⟩
        rw [hrest, List.cons_append]
      · -- a dot has a key character behind it, which a further segment has not
        obtain ⟨rfl, hhead⟩ :
            c = '.' ∧ (rest.head?.map isKeyChar).getD false = true := by
          simpa [hchar] using hc
        have hne : word ≠ [] := by
          rintro rfl
          rw [hrest] at hhead
          cases segments with
          | nil => cases hhead
          | cons segment segments =>
            have hdot : isKeyChar '.' = true := hhead
            exact absurd hdot (by decide)
        refine ⟨[], word :: segments, List.forall_mem_nil _,
          List.forall_mem_cons.2 ⟨⟨hne, hword⟩, hsegments⟩, ?_⟩
        rw [hrest, List.nil_append, List.flatMap_cons, List.cons_append]
    · cases h

/-- Dotted segments are cut off to their end. -/
theorem splitKey_segments {segments : List (List Char)}
    (h : ∀ segment ∈ segments, IsSegment segment) :
    (splitKey (segments.flatMap ('.' :: ·))).2 = [] := by
  induction segments with
  | nil => rfl
  | cons segment segments ih =>
    obtain ⟨⟨hne, hchars⟩, hrest⟩ := List.forall_mem_cons.1 h
    obtain ⟨c, cs, rfl⟩ := List.exists_cons_of_ne_nil hne
    have hc : isKeyChar c = true := hchars c List.mem_cons_self
    rw [List.flatMap_cons, List.cons_append, splitKey, if_pos (by simp [hc])]
    show (splitKey ((c :: cs) ++ segments.flatMap ('.' :: ·))).2 = []
    rw [splitKey_append_of_forall hchars]
    exact ih hrest

/-- A key is an identifier with dotted segments behind it. -/
theorem isKey_iff {cs : List Char} : isKey cs = true ↔ IsDotted cs := by
  constructor
  · intro h
    obtain ⟨hstart, hend⟩ := Bool.and_eq_true_iff.1 h
    obtain ⟨word, segments, hword, hsegments, rfl⟩ :=
      exists_segments (List.isEmpty_iff.1 hend)
    cases word with
    | nil =>
      -- what begins with a dot, or not at all, is no identifier
      cases segments with
      | nil => cases hstart
      | cons segment segments =>
        have hdot : isKeyStart '.' = true := hstart
        exact absurd hdot (by decide)
    | cons c word =>
      refine ⟨c :: word, segments, ⟨List.cons_ne_nil _ _, hword⟩, ?_,
        hsegments, rfl⟩
      simpa using hstart
  · rintro ⟨identifier, segments, ⟨hne, hchars⟩, hstart, hsegments, rfl⟩
    obtain ⟨c, word, rfl⟩ := List.exists_cons_of_ne_nil hne
    rw [isKey, splitKey_append_of_forall hchars, splitKey_segments hsegments]
    simpa using hstart

/-! ## Values -/

variable {old new : String}

/-- A renamed value refers to the renamed keys. -/
theorem keysOf_renameIn (hnew : isKey new.toList = true) (value : Json) :
    keysOf (renameIn old new value)
      = (keysOf value).map fun key => if key = old then new else key := by
  rw [renameIn, keysOf, Json.strings_mapStrings, keysOf, List.flatMap_map,
    List.map_flatMap]
  congr 1
  funext s
  exact keysIn_renameInString hnew s

/-- A value that does not refer to the old key is left alone. -/
theorem renameIn_of_not_mem {value : Json} (h : old ∉ keysOf value) :
    renameIn old new value = value := by
  rw [renameIn, Json.mapStrings_eq_self_iff]
  intro s hs
  exact renameInString_of_not_mem fun hkey =>
    h (List.mem_flatMap.2 ⟨s, hs, hkey⟩)

/-- A renamed value does not refer to the old key. -/
theorem not_mem_keysOf_renameIn (hnew : isKey new.toList = true)
    (hne : old ≠ new) (value : Json) :
    old ∉ keysOf (renameIn old new value) := by
  rw [keysOf_renameIn hnew]
  intro hmem
  obtain ⟨key, _, hkey⟩ := List.mem_map.1 hmem
  split at hkey
  · exact hne hkey.symm
  · next hother => exact hother hkey

/-- A value is left alone iff it does not refer to the old key. -/
theorem renameIn_eq_self_iff (hnew : isKey new.toList = true) (hne : old ≠ new)
    {value : Json} :
    renameIn old new value = value ↔ old ∉ keysOf value := by
  constructor
  · intro hkept
    rw [← hkept]
    exact not_mem_keysOf_renameIn hnew hne value
  · exact renameIn_of_not_mem

variable (old) in
/-- A rename to a key that a reference can name is exact, whatever the value is
and whatever key is renamed. The value refers, reference by reference, to what
it referred to, with the new key for the old one. A value without a reference to
the old key stays as it is, and all that is saved by looking for double braces
first is work. What was renamed once is not changed by the same rename. -/
theorem renameIn_exact (hnew : IsDotted new.toList) (value : Json) :
    keysOf (renameIn old new value)
        = (keysOf value).map (fun key => if key = old then new else key)
      ∧ (old ∉ keysOf value → renameIn old new value = value)
      ∧ renameIn old new value = value.mapStrings (rename old new)
      ∧ (old ≠ new → renameIn old new (renameIn old new value)
        = renameIn old new value) := by
  have hkey : isKey new.toList = true := isKey_iff.2 hnew
  refine ⟨keysOf_renameIn hkey value, renameIn_of_not_mem, ?_, fun hne => ?_⟩
  · rw [renameIn, funext (renameInString_eq_rename old new)]
  · exact renameIn_of_not_mem (not_mem_keysOf_renameIn hkey hne value)

/-- A reference behind a brace too many, one with blanks, a longer key with the
same beginning, a reference that is not closed, and a key of an object, which is
no string inside it. -/
def statusTexts : Json := .object [
  ("\x7b\x7bstate.status\x7d\x7d", .null),
  ("label", .array [.string "\x7b\x7b\x7bstate.status\x7d\x7d",
    .object [("hint", .string
      "\x7b\x7b state.status \x7d\x7d of \x7b\x7bstate.statusText\x7d\x7d")]]),
  ("rest", .string "\x7b\x7bstate.status\x7d \x7b\x7bstate.status.at\x7d\x7d")]

/-- The two references to the key are renamed in place and nothing else is. -/
theorem renameIn_exact_statusTexts :
    IsDotted "filters.status".toList ∧ "status" ≠ "filters.status"
      ∧ keysOf (renameIn "status" "filters.status" statusTexts)
        = ["filters.status", "filters.status", "statusText", "status.at"]
      ∧ renameIn "status" "filters.status"
        (renameIn "status" "filters.status" statusTexts)
        = renameIn "status" "filters.status" statusTexts
      ∧ renameIn "label" "filters.status" statusTexts = statusTexts := by
  have hnew : IsDotted "filters.status".toList := isKey_iff.1 (by decide)
  have hne : "status" ≠ "filters.status" := by decide
  obtain ⟨hkeys, _, _, htwice⟩ := renameIn_exact "status" hnew statusTexts
  obtain ⟨_, hkept, _⟩ := renameIn_exact "label" hnew statusTexts
  refine ⟨hnew, hne, ?_, htwice hne, hkept (by decide +kernel)⟩
  rw [hkeys]
  decide +kernel

end IntentGraph.Template
