import IntentGraph.Json.Basic

/-!
# Looking into collections and values

What each operation on a collection does to a lookup and to the entries, and
what the strings inside a value are whose strings are changed.
-/

namespace IntentGraph

namespace Fields

variable {fields : Fields} {key key' : String} {value : Json}

/-- A change of the values changes what a key has. -/
theorem get?_mapValues (f : String → Json → Json) (fields : Fields)
    (key : String) :
    get? (mapValues f fields) key = (get? fields key).map (f key) := by
  induction fields with
  | nil => rfl
  | cons entry rest ih =>
    obtain ⟨k, v⟩ := entry
    simp only [get?, mapValues, List.map_cons, List.lookup_cons] at ih ⊢
    cases hk : key == k with
    | true =>
      obtain rfl : key = k := by simpa using hk
      rfl
    | false => exact ih

theorem keys_mapValues (f : String → Json → Json) (fields : Fields) :
    keys (mapValues f fields) = keys fields := by
  simp [keys, mapValues]

theorem mapValues_mapValues (f g : String → Json → Json) (fields : Fields) :
    mapValues g (mapValues f fields)
      = mapValues (fun key value => g key (f key value)) fields := by
  simp [mapValues]

theorem get?_erase_self (fields : Fields) (key : String) :
    get? (erase fields key) key = none := by
  rw [get?, erase, List.lookup_eq_none_iff]
  intro entry hentry
  have hne : entry.1 ≠ key := by simpa using (List.mem_filter.1 hentry).2
  simpa using hne.symm

theorem get?_erase_of_ne (hne : key' ≠ key) :
    get? (erase fields key) key' = get? fields key' := by
  induction fields with
  | nil => rfl
  | cons entry rest ih =>
    obtain ⟨k, v⟩ := entry
    simp only [get?, erase, List.filter_cons] at ih ⊢
    by_cases hk : k = key
    · have hfalse : (key' == k) = false := by simpa [hk] using hne
      simp [hk, List.lookup_cons, hk ▸ hfalse, ih]
    · simp [hk, List.lookup_cons, ih]

theorem get?_insert_self (key : String) (value : Json) (fields : Fields) :
    get? (insert key value fields) key = some value := by
  induction fields with
  | nil => simp [get?, insert]
  | cons entry rest ih =>
    obtain ⟨k, v⟩ := entry
    unfold insert
    split
    · simp [get?]
    · split
      · simp [get?]
      · next hne =>
        simp only [get?] at ih ⊢
        rw [List.lookup_cons, beq_false_of_ne hne]
        exact ih

theorem get?_insert_of_ne (hne : key' ≠ key) (value : Json) (fields : Fields) :
    get? (insert key value fields) key' = get? fields key' := by
  have hfalse : (key' == key) = false := beq_false_of_ne hne
  induction fields with
  | nil => simp [get?, insert, List.lookup_cons, hfalse]
  | cons entry rest ih =>
    obtain ⟨k, v⟩ := entry
    unfold insert
    split
    · simp [get?, List.lookup_cons, hfalse]
    · split
      · next heq => simp [get?, List.lookup_cons, ← heq, hfalse]
      · simp only [get?, List.lookup_cons] at ih ⊢
        rw [ih]

/-- What a key has is an entry. -/
theorem mem_of_get? (h : get? fields key = some value) :
    (key, value) ∈ fields := by
  obtain ⟨before, after, rfl, _⟩ := List.lookup_eq_some_iff.1 h
  exact List.mem_append_right _ List.mem_cons_self

theorem get?_eq_none_iff : get? fields key = none ↔ key ∉ keys fields := by
  rw [get?, List.lookup_eq_none_iff]
  constructor
  · intro h hmem
    obtain ⟨entry, hentry, rfl⟩ := List.mem_map.1 hmem
    simpa using h entry hentry
  · intro h entry hentry
    rw [bne_iff_ne]
    rintro rfl
    exact h (List.mem_map_of_mem hentry)

/-- A key that has an entry has a value. -/
theorem exists_get? (h : key ∈ keys fields) :
    ∃ value, get? fields key = some value :=
  Option.ne_none_iff_exists'.1 fun hnone => get?_eq_none_iff.1 hnone h

theorem mem_erase {entry : String × Json} :
    entry ∈ erase fields key ↔ entry ∈ fields ∧ entry.1 ≠ key := by
  rw [erase, List.mem_filter, bne_iff_ne]

theorem mem_of_mem_insert {entry : String × Json}
    (h : entry ∈ insert key value fields) :
    entry = (key, value) ∨ entry ∈ fields := by
  induction fields with
  | nil => exact .inl (List.mem_singleton.1 h)
  | cons other rest ih =>
    obtain ⟨k, v⟩ := other
    unfold insert at h
    split at h
    · exact List.mem_cons.1 h
    · split at h
      · exact (List.mem_cons.1 h).imp_right (List.mem_cons_of_mem _)
      · rcases List.mem_cons.1 h with rfl | h
        · exact .inr List.mem_cons_self
        · exact (ih h).imp_right (List.mem_cons_of_mem _)

theorem mem_values : value ∈ values fields ↔ ∃ key, (key, value) ∈ fields := by
  simp [values]

theorem mem_keys : key ∈ keys fields ↔ ∃ value, (key, value) ∈ fields := by
  simp [keys]

theorem contains_iff : contains fields key = true ↔ key ∈ keys fields := by
  simp [contains, keys]

theorem mem_keys_erase :
    key' ∈ keys (erase fields key) ↔ key' ∈ keys fields ∧ key' ≠ key := by
  simp [mem_keys, mem_erase]

theorem mem_keys_insert :
    key' ∈ keys (insert key value fields)
      ↔ key' = key ∨ key' ∈ keys fields := by
  induction fields with
  | nil => simp [insert, keys]
  | cons entry rest ih =>
    obtain ⟨k, v⟩ := entry
    have hcons : ∀ {k : String} {v : Json} {fields : Fields},
        key' ∈ keys ((k, v) :: fields) ↔ key' = k ∨ key' ∈ keys fields := by
      simp [keys]
    unfold insert
    split
    · simp only [hcons]
    · split
      · next hkey => simp only [hcons, hkey, or_self_left]
      · simp only [hcons, ih, or_left_comm]

/-- Insertion keeps the keys in ascending order. -/
theorem ascending_insert (h : (keys fields).Pairwise (· < ·)) (key : String)
    (value : Json) :
    (keys (insert key value fields)).Pairwise (· < ·) := by
  induction fields with
  | nil => exact List.pairwise_singleton _ _
  | cons entry rest ih =>
    obtain ⟨k, v⟩ := entry
    obtain ⟨hfirst, hrest⟩ := List.pairwise_cons.1 h
    unfold insert
    split
    · next hlt =>
      -- it goes in front
      refine List.pairwise_cons.2
        ⟨List.forall_mem_cons.2 ⟨hlt, fun other hother => ?_⟩, h⟩
      exact String.lt_trans hlt (hfirst other hother)
    · next hnlt =>
      split
      · next heq =>
        -- it takes the place of the first entry
        rw [heq]
        exact h
      · next hne =>
        -- it goes further back
        have hlt : k < key := Decidable.byContradiction fun hk =>
          hne (String.le_antisymm (String.not_lt.1 hk) (String.not_lt.1 hnlt))
        refine List.pairwise_cons.2 ⟨fun other hother => ?_, ih hrest⟩
        rcases mem_keys_insert.1 hother with rfl | hother
        · exact hlt
        · exact hfirst other hother

theorem ascending_erase (h : (keys fields).Pairwise (· < ·)) (key : String) :
    (keys (erase fields key)).Pairwise (· < ·) :=
  h.sublist (List.filter_sublist.map _)

theorem mem_mapValues {f : String → Json → Json} :
    (key, value) ∈ mapValues f fields ↔ ∃ old, (key, old) ∈ fields
      ∧ value = f key old := by
  simp only [mapValues, List.mem_map, Prod.mk.injEq, Prod.exists]
  constructor
  · rintro ⟨k, old, hmem, rfl, rfl⟩
    exact ⟨old, hmem, rfl⟩
  · rintro ⟨old, hmem, rfl⟩
    exact ⟨key, old, hmem, rfl, rfl⟩

end Fields

namespace Json

mutual

/-- The strings inside a changed value are the changed strings. -/
theorem strings_mapStrings (f : String → String) :
    ∀ value : Json, (value.mapStrings f).strings = value.strings.map f
  | .string _ | .null | .bool _ | .number _ => rfl
  | .array items => stringsOfItems_mapStrings f items
  | .object fields => stringsOfFields_mapStrings f fields

theorem stringsOfItems_mapStrings (f : String → String) :
    ∀ items : List Json, stringsOfItems (mapStringsOfItems f items)
      = (stringsOfItems items).map f
  | [] => rfl
  | item :: rest => by
    rw [mapStringsOfItems, stringsOfItems, stringsOfItems, List.map_append,
      strings_mapStrings f item, stringsOfItems_mapStrings f rest]

theorem stringsOfFields_mapStrings (f : String → String) :
    ∀ fields : List (String × Json),
      stringsOfFields (mapStringsOfFields f fields)
        = (stringsOfFields fields).map f
  | [] => rfl
  | (_, value) :: rest => by
    rw [mapStringsOfFields, stringsOfFields, stringsOfFields, List.map_append,
      strings_mapStrings f value, stringsOfFields_mapStrings f rest]

end

/-- The strings inside an object are those inside its values. -/
theorem mem_stringsOfFields {fields : Fields} {s : String} :
    s ∈ stringsOfFields fields
      ↔ ∃ value ∈ fields.values, s ∈ value.strings := by
  induction fields with
  | nil => simp [stringsOfFields, Fields.values]
  | cons entry rest ih =>
    obtain ⟨key, value⟩ := entry
    simp [stringsOfFields, Fields.values, ih] at ih ⊢

/-- The strings inside an array are those inside its items. -/
theorem mem_stringsOfItems {items : List Json} {s : String} :
    s ∈ stringsOfItems items ↔ ∃ item ∈ items, s ∈ item.strings := by
  induction items with
  | nil => simp [stringsOfItems]
  | cons item rest ih => simp [stringsOfItems, ih]

mutual

/-- A change of the strings leaves a value alone iff it leaves each of them
alone. -/
theorem mapStrings_eq_self_iff (f : String → String) :
    ∀ value : Json, value.mapStrings f = value ↔ ∀ s ∈ value.strings, f s = s
  | .string s => by simp [mapStrings, strings]
  | .null | .bool _ | .number _ => by simp [mapStrings, strings]
  | .array items => by
    rw [mapStrings, strings, Json.array.injEq,
      mapStringsOfItems_eq_self_iff f items]
  | .object fields => by
    rw [mapStrings, strings, Json.object.injEq,
      mapStringsOfFields_eq_self_iff f fields]

theorem mapStringsOfItems_eq_self_iff (f : String → String) :
    ∀ items : List Json, mapStringsOfItems f items = items
      ↔ ∀ s ∈ stringsOfItems items, f s = s
  | [] => by simp [mapStringsOfItems, stringsOfItems]
  | item :: rest => by
    rw [mapStringsOfItems, stringsOfItems, List.forall_mem_append,
      List.cons.injEq, mapStrings_eq_self_iff f item,
      mapStringsOfItems_eq_self_iff f rest]

theorem mapStringsOfFields_eq_self_iff (f : String → String) :
    ∀ fields : List (String × Json), mapStringsOfFields f fields = fields
      ↔ ∀ s ∈ stringsOfFields fields, f s = s
  | [] => by simp [mapStringsOfFields, stringsOfFields]
  | (_, value) :: rest => by
    rw [mapStringsOfFields, stringsOfFields, List.forall_mem_append,
      List.cons.injEq, Prod.mk.injEq, eq_self, true_and,
      mapStrings_eq_self_iff f value, mapStringsOfFields_eq_self_iff f rest]

end

theorem length_mapStringsOfItems (f : String → String) (items : List Json) :
    (mapStringsOfItems f items).length = items.length := by
  induction items with
  | nil => rfl
  | cons item rest ih => exact congrArg (· + 1) ih

theorem keys_mapStringsOfFields (f : String → String) (fields : Fields) :
    Fields.keys (mapStringsOfFields f fields) = Fields.keys fields := by
  induction fields with
  | nil => rfl
  | cons entry rest ih => exact congrArg (entry.1 :: ·) ih

end Json

end IntentGraph
