import IntentGraph.Proofs.Json
import IntentGraph.Wire.Decoder
import Mathlib.Data.List.Perm.Basic

/-!
# Trees of values

A value whose objects ascend by key (`Json.isSorted`) is what a decoder holds of
a text without types. Its tree loses nothing: sorting leaves it alone
(`Json.sortKeys_eq_self`), it is read from its tree
(`Json.decodeJson_toSource`), and what is held of the tree is the tree
(`Json.held_toSource`).

A structure is written in the order of declaration, and its value may be sorted
before it is read. `Json.Written` is either tree. The entries of either are
those of the structure, in some order (`Json.Written.exists_perm`).
-/

namespace IntentGraph

/-! ## Values in ascending order -/

namespace Json

mutual

/-- Whether every object inside a value ascends by key. -/
def isSorted : Json → Bool
  | .array items => isSortedItems items
  | .object fields => isSortedFields fields
  | .null | .bool _ | .number _ | .string _ => true

/-- Whether every object inside the values of a list ascends by key. -/
def isSortedItems : List Json → Bool
  | [] => true
  | item :: rest => isSorted item && isSortedItems rest

/-- Whether a collection ascends by key, and every object inside it. -/
def isSortedFields : List (String × Json) → Bool
  | [] => true
  | (key, value) :: rest =>
    isSorted value && (rest.all (key < ·.1) && isSortedFields rest)

end

theorem isSortedItems_iff {items : List Json} :
    isSortedItems items = true ↔ ∀ item ∈ items, item.isSorted = true := by
  induction items with
  | nil => simp [isSortedItems]
  | cons item rest ih => simp [isSortedItems, ih]

theorem isSortedFields_cons {key : String} {value : Json} {rest : Fields} :
    isSortedFields ((key, value) :: rest) = true ↔ value.isSorted = true
      ∧ (∀ entry ∈ rest, key < entry.1) ∧ isSortedFields rest = true := by
  simp [isSortedFields]

theorem isSorted_of_mem {fields : Fields} (h : isSortedFields fields = true) :
    ∀ entry ∈ fields, entry.2.isSorted = true := by
  induction fields with
  | nil => exact nofun
  | cons entry rest ih =>
    obtain ⟨hvalue, _, hrest⟩ := isSortedFields_cons.1 h
    exact List.forall_mem_cons.2 ⟨hvalue, ih hrest⟩

theorem isSortedFields_filter {fields : Fields}
    (h : isSortedFields fields = true) (p : String × Json → Bool) :
    isSortedFields (fields.filter p) = true := by
  induction fields with
  | nil => rfl
  | cons entry rest ih =>
    obtain ⟨hvalue, hkey, hrest⟩ := isSortedFields_cons.1 h
    rw [List.filter_cons]
    split
    · exact isSortedFields_cons.2
        ⟨hvalue,
          fun other hother => hkey other (List.mem_filter.1 hother).1, ih hrest⟩
    · exact ih hrest

end Json

namespace Fields

variable {fields : Fields} {key : String} {value : Json}

theorem insert_of_lt (h : ∀ entry ∈ fields, key < entry.1) :
    insert key value fields = (key, value) :: fields := by
  cases fields with
  | nil => rfl
  | cons entry rest => rw [insert, if_pos (h entry List.mem_cons_self)]

theorem insert_of_gt (h : ∀ entry ∈ fields, entry.1 < key) :
    insert key value fields = fields ++ [(key, value)] := by
  induction fields with
  | nil => rfl
  | cons entry rest ih =>
    obtain ⟨hentry, hrest⟩ := List.forall_mem_cons.1 h
    have hle : ¬ key < entry.1 := String.lt_asymm hentry
    have hne : key ≠ entry.1 := fun heq => String.lt_irrefl _ (heq ▸ hentry)
    rw [insert, if_neg hle, if_neg hne, ih hrest, List.cons_append]

/-- Where keys ascend, a key has the value of its entry. -/
theorem get?_of_mem (h : Json.isSortedFields fields = true)
    (hentry : (key, value) ∈ fields) :
    get? fields key = some value := by
  induction fields with
  | nil => cases hentry
  | cons entry rest ih =>
    obtain ⟨k, v⟩ := entry
    obtain ⟨_, hkey, hrest⟩ := Json.isSortedFields_cons.1 h
    rcases List.mem_cons.1 hentry with heq | hentry
    · cases heq
      exact List.lookup_cons_self
    · have hne : key ≠ k := fun heq => String.lt_irrefl k (heq ▸ hkey _ hentry)
      rw [get?, List.lookup_cons, beq_false_of_ne hne]
      exact ih hrest hentry

/-- A new key is put between two parts of the collection. -/
theorem exists_of_insert (h : key ∉ keys fields) (value : Json) :
    ∃ before after : Fields, fields = before ++ after ∧ insert key value fields
      = before ++ (key, value) :: after := by
  induction fields with
  | nil => exact ⟨[], [], rfl, rfl⟩
  | cons entry rest ih =>
    obtain ⟨k, v⟩ := entry
    obtain ⟨hne, hrest⟩ := not_or.1 (mt List.mem_cons.2 h)
    have hkey : ¬ key = k := hne
    rw [insert, if_neg hkey]
    split
    · exact ⟨[], (k, v) :: rest, rfl, rfl⟩
    · obtain ⟨before, after, hfields, hinsert⟩ := ih hrest
      exact ⟨(k, v) :: before,
        after, by rw [hfields]; rfl, by rw [hinsert]; rfl⟩

theorem perm_insert (h : key ∉ keys fields) :
    (insert key value fields).Perm ((key, value) :: fields) := by
  obtain ⟨before, after, rfl, hinsert⟩ := exists_of_insert h value
  rw [hinsert]
  exact List.perm_middle

/-- The only entry of a key can be told from the others. -/
theorem partition_append {before after : Fields}
    (h : key ∉ keys (before ++ after)) :
    (before ++ (key, value) :: after).filter (·.1 == key) = [(key, value)]
      ∧ erase (before ++ (key, value) :: after) key = before ++ after := by
  have hother : ∀ e ∈ before ++ after, e.1 ≠ key := fun e he heq =>
    h (heq ▸ List.mem_map_of_mem he)
  obtain ⟨hbefore, hafter⟩ := List.forall_mem_append.1 hother
  have hnone : ∀ {part : Fields}, (∀ e ∈ part, e.1 ≠ key) →
      part.filter (·.1 == key) = [] :=
    fun hpart => List.filter_eq_nil_iff.2 fun e he heq =>
      hpart e he (beq_iff_eq.1 heq)
  have hall : ∀ {part : Fields}, (∀ e ∈ part, e.1 ≠ key) →
      part.filter (·.1 != key) = part :=
    fun hpart => List.filter_eq_self.2 fun e he => bne_iff_ne.2 (hpart e he)
  constructor
  · rw [List.filter_append, hnone hbefore, List.filter_cons,
      if_pos (by simp), hnone hafter]
    rfl
  · rw [erase, List.filter_append, hall hbefore, List.filter_cons,
      if_neg (by simp), hall hafter]

theorem ofList_eq_self (h : Json.isSortedFields fields = true) :
    ofList fields = fields := by
  -- on the entries that are left: each is put behind all that went before
  have happend : ∀ {before : Fields}, Json.isSortedFields fields = true →
      (∀ entry ∈ before, ∀ other ∈ fields, entry.1 < other.1) →
      fields.foldl (fun fields entry => insert entry.1 entry.2 fields) before
        = before ++ fields := by
    clear h
    induction fields with
    | nil => exact fun _ _ => (List.append_nil _).symm
    | cons entry rest ih =>
      intro before h hbefore
      obtain ⟨k, v⟩ := entry
      obtain ⟨_, hkey, hrest⟩ := Json.isSortedFields_cons.1 h
      have hlast : insert k v before = before ++ [(k, v)] :=
        insert_of_gt fun e he => hbefore e he (k, v) List.mem_cons_self
      rw [List.foldl_cons]
      show rest.foldl _ (insert k v before) = _
      rw [hlast, ih hrest, List.append_assoc, List.singleton_append]
      intro e he other hother
      rcases List.mem_append.1 he with he | he
      · exact hbefore e he other (List.mem_cons_of_mem _ hother)
      · rw [List.mem_singleton.1 he]
        exact hkey other hother
  exact happend h (List.forall_mem_nil _)

end Fields

/-! ## Trees -/

namespace Json

theorem toSourceItems_eq_map (items : List Json) :
    toSourceItems items = items.map toSource := by
  induction items with
  | nil => rfl
  | cons item rest ih => rw [toSourceItems, ih, List.map_cons]

theorem toSourceFields_eq_map (fields : Fields) :
    toSourceFields fields = fields.map fun e =>
      (.string e.1, e.2.toSource) := by
  induction fields with
  | nil => rfl
  | cons entry rest ih => rw [toSourceFields, ih, List.map_cons]

theorem sortKeysOfItems_eq_map (items : List Json) :
    sortKeysOfItems items = items.map sortKeys := by
  induction items with
  | nil => rfl
  | cons item rest ih => rw [sortKeysOfItems, ih, List.map_cons]

theorem keys_sortKeysOfFields {fields : Fields} {key : String} :
    key ∈ Fields.keys (sortKeysOfFields fields) ↔ key ∈ Fields.keys fields := by
  induction fields with
  | nil => exact Iff.rfl
  | cons entry rest ih =>
    rw [sortKeysOfFields, Fields.mem_keys_insert, ih]
    exact List.mem_cons.symm

/-- Sorted entries are the entries in another order. -/
theorem perm_sortKeysOfFields {fields : Fields}
    (h : (Fields.keys fields).Nodup) :
    (sortKeysOfFields fields).Perm (fields.map fun e =>
      (e.1, e.2.sortKeys)) := by
  induction fields with
  | nil => exact .refl _
  | cons entry rest ih =>
    obtain ⟨hkey, hrest⟩ := List.nodup_cons.1 h
    exact (Fields.perm_insert (mt keys_sortKeysOfFields.1 hkey)).trans
      (.cons _ (ih hrest))

mutual

theorem sortKeys_eq_self : ∀ {v : Json}, v.isSorted = true → v.sortKeys = v
  | .null, _ | .bool _, _ | .number _, _ | .string _, _ => rfl
  | .array _, h => congrArg Json.array (sortKeysOfItems_eq_self h)
  | .object _, h => congrArg Json.object (sortKeysOfFields_eq_self h)

theorem sortKeysOfItems_eq_self : ∀ {items : List Json},
    isSortedItems items = true → sortKeysOfItems items = items
  | [], _ => rfl
  | item :: rest, h => by
    obtain ⟨hitem, hrest⟩ := Bool.and_eq_true_iff.1 h
    rw [sortKeysOfItems, sortKeys_eq_self hitem, sortKeysOfItems_eq_self hrest]

theorem sortKeysOfFields_eq_self : ∀ {fields : List (String × Json)},
    isSortedFields fields = true → sortKeysOfFields fields = fields
  | [], _ => rfl
  | (key, value) :: rest, h => by
    obtain ⟨hvalue, hkey, hrest⟩ := isSortedFields_cons.1 h
    rw [sortKeysOfFields, sortKeys_eq_self hvalue,
      sortKeysOfFields_eq_self hrest, Fields.insert_of_lt hkey]

end

mutual

/-- What is held of the tree of a value is the tree. -/
theorem held_toSource : ∀ v : Json, v.toSource.held = .ok v.toSource
  | .null | .bool _ | .number _ | .string _ => rfl
  | .array items => by
    rw [toSource, Source.held, heldItems_toSourceItems items]
    rfl
  | .object fields => by
    rw [toSource, Source.held, heldEntries_toSourceFields fields]
    rfl

theorem heldItems_toSourceItems : ∀ items : List Json,
    Source.heldItems (toSourceItems items) = .ok (toSourceItems items)
  | [] => rfl
  | item :: rest => by
    rw [toSourceItems, Source.heldItems, held_toSource item,
      heldItems_toSourceItems rest]
    rfl

theorem heldEntries_toSourceFields : ∀ fields : List (String × Json),
    Source.heldEntries (toSourceFields fields) = .ok (toSourceFields fields)
  | [] => rfl
  | (key, value) :: rest => by
    rw [toSourceFields, Source.heldEntries, held_toSource value,
      heldEntries_toSourceFields rest]
    rfl

end

mutual

/-- A sorted value is read from its tree. -/
theorem decodeJson_toSource : ∀ {v : Json}, v.isSorted = true →
    decodeJson v.toSource = .ok v
  | .null, _ | .bool _, _ | .number _, _ | .string _, _ => rfl
  | .array items, h => by
    rw [toSource, decodeJson, decodeJsonItems_toSourceItems h]
    rfl
  | .object fields, h => by
    rw [toSource, decodeJson, decodeJsonEntries_toSourceFields h]
    show Except.ok (Json.object (Fields.ofList fields)) = _
    rw [Fields.ofList_eq_self h]

theorem decodeJsonItems_toSourceItems : ∀ {items : List Json},
    isSortedItems items = true →
      decodeJsonItems (toSourceItems items) = .ok items
  | [], _ => rfl
  | item :: rest, h => by
    obtain ⟨hitem, hrest⟩ := Bool.and_eq_true_iff.1 h
    rw [toSourceItems, decodeJsonItems, decodeJson_toSource hitem,
      decodeJsonItems_toSourceItems hrest]
    rfl

theorem decodeJsonEntries_toSourceFields : ∀ {fields : List (String × Json)},
    isSortedFields fields = true →
      decodeJsonEntries (toSourceFields fields) = .ok fields
  | [], _ => rfl
  | (key, value) :: rest, h => by
    obtain ⟨hvalue, _, hrest⟩ := isSortedFields_cons.1 h
    rw [toSourceFields, decodeJsonEntries, decodeJson_toSource hvalue,
      decodeJsonEntries_toSourceFields hrest]
    rfl

end

/-! ## What is written -/

/-- The trees that a value is written as: its own, or that of the sorted
value. -/
def Written (v : Json) (s : Source) : Prop :=
  s = v.toSource ∨ s = v.sortKeys.toSource

namespace Written

variable {v : Json} {s : Source}

theorem toSource (v : Json) : v.Written v.toSource := .inl rfl

theorem sorted (v : Json) : v.Written v.sortKeys.toSource := .inr rfl

/-- What is written is the tree of a value. -/
theorem exists_eq (h : v.Written s) : ∃ w : Json, s = w.toSource :=
  h.elim (⟨_, ·⟩) (⟨_, ·⟩)

theorem held (h : v.Written s) : s.held = .ok s := by
  obtain ⟨w, rfl⟩ := h.exists_eq
  exact held_toSource w

/-- A sorted value is written in one way. -/
theorem eq_of_isSorted (hv : v.isSorted = true) (h : v.Written s) :
    s = v.toSource := by
  rcases h with h | h
  · exact h
  · rwa [sortKeys_eq_self hv] at h

/-- An array is written item by item. -/
theorem exists_items {items : List Json} (h : (Json.array items).Written s) :
    ∃ sources, s = .list sources none ∧ List.Forall₂ Written items sources := by
  have hmap : ∀ f : Json → Source, (∀ v : Json, v.Written (f v)) →
      List.Forall₂ Written items (items.map f) := fun f hf => by
    rw [List.forall₂_map_right_iff]
    exact List.forall₂_same.2 fun v _ => hf v
  rcases h with rfl | rfl
  · exact ⟨_, rfl, toSourceItems_eq_map items ▸ hmap _ toSource⟩
  · refine ⟨_, rfl, ?_⟩
    rw [toSourceItems_eq_map, sortKeysOfItems_eq_map, List.map_map]
    exact hmap _ sorted

/-- The entries of an object are written in some order, all of them in the same
way. -/
theorem exists_perm {fields : Fields} (hkeys : (Fields.keys fields).Nodup)
    (h : (Json.object fields).Written s) :
    ∃ (f : Json → Source) (entries : List (String × Source)),
      (∀ v : Json, v.Written (f v))
        ∧ entries.Perm (fields.map fun e => (e.1, f e.2))
        ∧ s = .record (entries.map fun e => (.string e.1, e.2)) none := by
  rcases h with rfl | rfl
  · refine ⟨Json.toSource, _, toSource, .refl _, ?_⟩
    rw [Json.toSource, toSourceFields_eq_map, List.map_map]
    rfl
  · refine ⟨fun v => v.sortKeys.toSource,
      (sortKeysOfFields fields).map fun e => (e.1, e.2.toSource),
      sorted, ?_, ?_⟩
    · have hperm :=
        (perm_sortKeysOfFields hkeys).map fun e => (e.1, e.2.toSource)
      rwa [List.map_map] at hperm
    · rw [sortKeys, Json.toSource, toSourceFields_eq_map, List.map_map]
      rfl

end Written

end Json

end IntentGraph
