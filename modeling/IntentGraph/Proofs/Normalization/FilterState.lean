import IntentGraph.Proofs.Normalization.FilterKeys

/-!
# Filter state that is merged

Several spellings of one filter key may have entries in a state map, the key
itself among them. The renames, one after the other, leave one entry for all of
them. Its value is that of the key itself where that has an entry, and else that
of the spelling that comes first, for it is renamed first and every later one
finds the key taken (`KeyRename.get?_foldl_onMap`).

So a state map keeps an entry for everything that its keys stand for, and what
value it has is known beforehand (`MergesFilters`):
`IntentDocument.mergesFilters_normalize`.
-/

namespace IntentGraph

/-! ## The entry that counts -/

/-- The key from which a key has its value in the end: itself, where it has an
entry, or else the least of the spellings of it that have one. -/
def IsSource (state : Fields) (key source : String) : Prop :=
  source ∈ Fields.keys state ∧ Key.meant source = key
    ∧ (source = key ∨ key ∉ Fields.keys state
      ∧ ∀ other ∈ Fields.keys state, Key.meant other = key → source ≤ other)

namespace IsSource

variable {state : Fields} {key source source' : String}

theorem filterAlias?_eq_none (h : IsSource state key source) :
    Key.filterAlias? key = none :=
  h.2.1 ▸ Key.filterAlias?_meant source

theorem unique (h : IsSource state key source)
    (h' : IsSource state key source') :
    source = source' := by
  obtain ⟨hmem, hmeant, rfl | ⟨hnot, hleast⟩⟩ := h
  · obtain ⟨_, _, rfl | ⟨hnot', _⟩⟩ := h'
    · rfl
    · exact absurd hmem hnot'
  · obtain ⟨hmem', hmeant', rfl | ⟨_, hleast'⟩⟩ := h'
    · exact absurd hmem' hnot
    · exact String.le_antisymm (hleast source' hmem' hmeant')
        (hleast' source hmem hmeant)

end IsSource

/-- What an entry stands for has its value from somewhere. -/
theorem exists_isSource {state : Fields} {old : String}
    (hold : old ∈ Fields.keys state) :
    ∃ source, IsSource state (Key.meant old) source := by
  by_cases hmem : Key.meant old ∈ Fields.keys state
  · exact ⟨Key.meant old, hmem,
      Key.meant_eq_self_iff.2 (Key.filterAlias?_meant old), .inl rfl⟩
  · -- the source is the least of the keys that stand for the same
    let spellings := KeySet.ofList
      ((Fields.keys state).filter fun other => Key.meant other = Key.meant old)
    have hspelling : ∀ {other : String}, other ∈ spellings ↔
        other ∈ Fields.keys state ∧ Key.meant other = Key.meant old := by
      simp [spellings]
    cases hfirst : spellings.members.head? with
    | none =>
      have hnone : old ∉ spellings.members := by
        simp [List.head?_eq_none_iff.1 hfirst]
      exact absurd (hspelling.2 ⟨hold, rfl⟩) hnone
    | some source =>
      obtain ⟨hmem', hleast⟩ := KeySet.head?_eq_some_iff.1 hfirst
      obtain ⟨hsource, hmeant⟩ := hspelling.1 hmem'
      refine ⟨source, hsource, hmeant,
        .inr ⟨hmem, fun other hother hsame => ?_⟩⟩
      by_cases hother' : other = source
      · exact hother' ▸ String.le_refl other
      · exact Std.le_of_lt (hleast other (hspelling.2 ⟨hother, hsame⟩) hother')

/-! ## A run of renames -/

namespace KeyRename

variable {r : KeyRename} {fields : Fields} {key : String}

/-- A rename brings the value of the old key to the new one, which keeps its own
if it has one. -/
theorem get?_onMap_new (hr : Key.filterAlias? r.old = some r.new)
    (fields : Fields) :
    (r.onMap fields).get? r.new
      = (fields.get? r.new).or (fields.get? r.old) := by
  have hrest : (fields.erase r.old).get? r.new = fields.get? r.new :=
    Fields.get?_erase_of_ne (old_ne_new hr).symm
  unfold onMap
  cases hold : fields.get? r.old with
  | none => rw [Option.or_none]
  | some value =>
    simp only
    split
    · next hcontains =>
      rw [hrest]
      cases hnew : fields.get? r.new with
      | none =>
        rw [← hrest] at hnew
        exact absurd (Fields.contains_iff.1 hcontains)
          (Fields.get?_eq_none_iff.1 hnew)
      | some own => rfl
    · next hcontains =>
      have hnone : (fields.erase r.old).get? r.new = none :=
        Fields.get?_eq_none_iff.2 (mt Fields.contains_iff.2 hcontains)
      rw [Fields.get?_insert_self, ← hrest, hnone, Option.none_or]

/-- A rename leaves the values of all other keys alone. -/
theorem get?_onMap_of_ne (hold : key ≠ r.old) (hnew : key ≠ r.new)
    (fields : Fields) :
    (r.onMap fields).get? key = fields.get? key := by
  unfold onMap
  split
  · rfl
  · simp only
    split
    · exact Fields.get?_erase_of_ne hold
    · rw [Fields.get?_insert_of_ne hnew, Fields.get?_erase_of_ne hold]

/-- A rename keeps a state map in ascending order. -/
theorem ascending_onMap (h : (Fields.keys fields).Pairwise (· < ·)) :
    (Fields.keys (r.onMap fields)).Pairwise (· < ·) := by
  unfold onMap
  split
  · exact h
  · simp only
    split
    · exact Fields.ascending_erase h r.old
    · exact Fields.ascending_insert (Fields.ascending_erase h r.old) r.new _

theorem ascending_foldl_onMap (h : (Fields.keys fields).Pairwise (· < ·))
    (renames : List KeyRename) :
    (Fields.keys
      (renames.foldl (fun fields r => r.onMap fields) fields)).Pairwise
      (· < ·) :=
  List.foldlRecOn renames _
    (motive := fun fields : Fields => (Fields.keys fields).Pairwise (· < ·))
    h fun _ hfields _ _ => ascending_onMap hfields

section run

variable {renames : List KeyRename}
  (halias : ∀ r ∈ renames, Key.filterAlias? r.old = some r.new)

theorem mem_keys_foldl_onMap :
    key ∈ Fields.keys (renames.foldl (fun fields r => r.onMap fields) fields)
      ↔ ∃ old ∈ Fields.keys fields,
        renames.foldl (fun key r => r.onKey key) old = key := by
  induction renames generalizing fields with
  | nil => simp
  | cons r renames ih =>
    rw [List.foldl_cons, ih]
    constructor
    · rintro ⟨mid, hmid, rfl⟩
      obtain ⟨old, hold, rfl⟩ := mem_keys_onMap_iff.1 hmid
      exact ⟨old, hold, rfl⟩
    · rintro ⟨old, hold, rfl⟩
      exact ⟨r.onKey old, mem_keys_onMap_iff.2 ⟨old, hold, rfl⟩, rfl⟩

include halias

/-- After a run of renames a key that is spelled right has its own value, or
else that of the first key that is renamed to it. -/
theorem get?_foldl_onMap (hnodup : (renames.map (·.old)).Nodup)
    (hkey : Key.filterAlias? key = none) (fields : Fields) :
    Fields.get? (renames.foldl (fun fields r => r.onMap fields) fields) key
      = (fields.get? key).or
        (renames.findSome? fun r =>
          if r.new = key then fields.get? r.old else none) := by
  induction renames generalizing fields with
  | nil => exact (Option.or_none).symm
  | cons r renames ih =>
    obtain ⟨hr, hrest⟩ := List.forall_mem_cons.1 halias
    obtain ⟨hnot, hnodup⟩ := List.nodup_cons.1 hnodup
    -- the keys that are still to be renamed are neither the old nor the new one
    have hlater : (renames.findSome? fun r' =>
          if r'.new = key then (r.onMap fields).get? r'.old else none)
        = renames.findSome? fun r' =>
          if r'.new = key then fields.get? r'.old else none := by
      simp only [← List.head?_filterMap]
      congr 1
      refine List.filterMap_congr fun r' hr' => ?_
      have hold : r'.old ≠ r.old :=
        fun heq => hnot (List.mem_map.2 ⟨r', hr', heq⟩)
      have hnew : r'.old ≠ r.new :=
        Key.ne_of_filterAlias? (hrest r' hr')
          (Key.filterAlias?_of_filterAlias? hr)
      rw [get?_onMap_of_ne hold hnew]
    rw [List.foldl_cons, ih hrest hnodup, hlater, List.findSome?_cons]
    -- the first rename gives the key a value only if no entry had it
    by_cases hnew : r.new = key
    · rw [if_pos hnew, ← hnew, get?_onMap_new hr, Option.or_assoc]
      cases fields.get? r.old <;> rfl
    · have hold : key ≠ r.old := (Key.ne_of_filterAlias? hr hkey).symm
      rw [if_neg hnew, get?_onMap_of_ne hold (Ne.symm hnew)]

end run

end KeyRename

/-! ## State maps of documents -/

/-- What becomes of a state map in normalization. It has an entry for each key
that one of its keys stands for, no other, and in ascending order if that is how
the entries came. The value of an entry is that of its source, with the sentinel
for filter state that is null or the empty text. -/
structure MergesFilters (sentinel : String) (state merged : Fields) : Prop where
  keys : ∀ key, key ∈ Fields.keys merged
    ↔ ∃ old ∈ Fields.keys state, Key.meant old = key
  source : ∀ key ∈ Fields.keys merged, ∃ source, IsSource state key source
  value : ∀ key source, IsSource state key source →
    merged.get? key = (state.get? source).map fun value =>
      if Key.isFilterKey key ∧ (value = .null ∨ value = .string "") then
        .string sentinel
      else value
  ascending : (Fields.keys state).Pairwise (· < ·) →
    (Fields.keys merged).Pairwise (· < ·)

theorem isUnsetFilter_iff {key : String} {value : Json} :
    isUnsetFilter key value = true
      ↔ Key.isFilterKey key = true ∧ (value = .null ∨ value = .string "") := by
  cases value <;> simp [isUnsetFilter, isUnset]

namespace IntentDocument

variable {d : IntentDocument} {state : Fields}

/-- The renames of a document ascend by the old keys. -/
theorem ascending_filterRenames (d : IntentDocument) :
    d.filterRenames.Pairwise fun r r' => r.old < r'.old := by
  refine List.Pairwise.filterMap _ ?_ d.mentionedKeys.ascending
  intro old old' hlt r hr r' hr'
  obtain ⟨_, _, rfl⟩ := Option.map_eq_some_iff.1 hr
  obtain ⟨_, _, rfl⟩ := Option.map_eq_some_iff.1 hr'
  exact hlt

theorem nodup_filterRenames (d : IntentDocument) :
    (d.filterRenames.map (·.old)).Nodup :=
  List.pairwise_map.2 (d.ascending_filterRenames.imp Std.ne_of_lt)

/-- The spelling that is renamed first is the least one. -/
theorem findSome?_filterRenames (hstate : state ∈ d.allStates)
    {key source : String} (hsource : IsSource state key source)
    (hne : source ≠ key) :
    (d.filterRenames.findSome? fun r =>
        if r.new = key then state.get? r.old else none)
      = state.get? source := by
  obtain ⟨hmem, hmeant, heq | ⟨_, hleast⟩⟩ := hsource
  · exact absurd heq hne
  · have halias : Key.filterAlias? source = some key := by
      rw [← hmeant]
      cases halias : Key.filterAlias? source with
      | none =>
        exact absurd
          (hmeant.symm.trans (Key.meant_eq_self_iff.2 halias)) hne.symm
      | some new => rw [Key.meant, halias, Option.getD_some]
    obtain ⟨value, hvalue⟩ := Fields.exists_get? hmem
    have hrename : ⟨source, key⟩ ∈ d.filterRenames :=
      mem_filterRenames.2
        ⟨mem_mentionedKeys.2 (.inl ⟨state, hstate, hmem⟩), halias⟩
    -- every rename to the key that comes before has a lesser old key
    obtain ⟨before, after, hsplit⟩ := List.append_of_mem hrename
    rw [hvalue, List.findSome?_eq_some_iff]
    refine ⟨before, ⟨source, key⟩, after,
      hsplit, by rw [if_pos rfl, hvalue], fun r hr => ?_⟩
    have hr' : r ∈ d.filterRenames := hsplit ▸ List.mem_append_left _ hr
    split
    · next hnew =>
      -- such a key in the state map would be a lesser source
      rw [Fields.get?_eq_none_iff]
      intro hold
      have hlt : r.old < source := by
        have hascending := d.ascending_filterRenames
        rw [hsplit] at hascending
        exact (List.pairwise_append.1 hascending).2.2 r hr _ List.mem_cons_self
      have hsame : Key.meant r.old = key := by
        rw [Key.meant, (mem_filterRenames.1 hr').2, Option.getD_some, hnew]
      exact String.not_le.2 hlt (hleast r.old hold hsame)
    · rfl

/-- Renames and sentinels merge the filter state of every state map. -/
theorem mergesFilters_of_mem_allStates (hstate : state ∈ d.allStates)
    (sentinel : String) :
    MergesFilters sentinel state (withFilterSentinels sentinel
      (d.filterRenames.foldl (fun fields r => r.onMap fields) state)) := by
  have halias : ∀ r ∈ d.filterRenames, Key.filterAlias? r.old = some r.new :=
    fun _ hr => (mem_filterRenames.1 hr).2
  have hkeys : ∀ key, key ∈ Fields.keys (withFilterSentinels sentinel
        (d.filterRenames.foldl (fun fields r => r.onMap fields) state))
      ↔ ∃ old ∈ Fields.keys state, Key.meant old = key := by
    intro key
    rw [withFilterSentinels, Fields.keys_mapValues,
      KeyRename.mem_keys_foldl_onMap]
    refine exists_congr fun old => and_congr_right fun hold => ?_
    rw [KeyRename.foldl_onKey halias
      (pending_filterRenames
        (mem_mentionedKeys.2 (.inl ⟨state, hstate, hold⟩)))]
  refine ⟨hkeys, fun key hkey => ?_, fun key source hsource => ?_,
    fun hascending => ?_⟩
  · obtain ⟨old, hold, rfl⟩ := (hkeys key).1 hkey
    exact exists_isSource hold
  · have hmerged :
        Fields.get?
          (d.filterRenames.foldl (fun fields r => r.onMap fields) state) key
        = state.get? source := by
      rw [KeyRename.get?_foldl_onMap halias d.nodup_filterRenames
        hsource.filterAlias?_eq_none]
      -- a key that is there keeps its value; otherwise its first spelling gives
      -- it one
      by_cases heq : source = key
      · obtain ⟨value, hvalue⟩ := Fields.exists_get? hsource.1
        rw [← heq, hvalue, Option.some_or]
      · have hnone : state.get? key = none :=
          Fields.get?_eq_none_iff.2 (hsource.2.2.resolve_left heq).1
        rw [hnone, Option.none_or, findSome?_filterRenames hstate hsource heq]
    simp only [withFilterSentinels, Fields.get?_mapValues, hmerged,
      isUnsetFilter_iff]
  · rw [withFilterSentinels, Fields.keys_mapValues]
    exact KeyRename.ascending_foldl_onMap hascending d.filterRenames

/-- Normalization merges the filter state of a document: that which the mutation
adds, that which it updates, and that of the snapshot, whatever spellings there
are and whichever of them meet. -/
theorem mergesFilters_normalize (settings : NormalizeSettings)
    (d : IntentDocument) :
    MergesFilters settings.filterSentinel d.mutation.stateAdded
        (d.normalize settings).1.mutation.stateAdded
      ∧ MergesFilters settings.filterSentinel d.mutation.stateUpdated
        (d.normalize settings).1.mutation.stateUpdated
      ∧ Option.Rel
        (fun s s' => MergesFilters settings.filterSentinel s.state s'.state)
        d.prior (d.normalize settings).1.prior := by
  have hstates : (d.respelled settings).allStates = d.allStates := by
    simp only [respelled, allStates_onDocument]
    simp [canonicalIds, migratedKinds, loweredCopies, Revision.identity]
  have hmerges :
      ∀ state ∈ d.allStates, MergesFilters settings.filterSentinel state
        (withFilterSentinels settings.filterSentinel
          ((d.respelled settings).filterRenames.foldl
            (fun fields r => r.onMap fields) state)) :=
    fun state hstate => mergesFilters_of_mem_allStates (hstates ▸ hstate) _
  rw [fst_normalize, withFilterKeys, KeyRename.foldl_onDocument]
  generalize (d.respelled settings).filterRenames = renames at hmerges ⊢
  refine ⟨hmerges _ (by simp [allStates]), hmerges _ (by simp [allStates]), ?_⟩
  cases hprior : d.prior with
  | none =>
    simp only [Revision.onDocument, respelled, hprior, Option.map_none]
    exact .none
  | some s =>
    simp only [Revision.onDocument, respelled, hprior, Option.map_some]
    exact .some (hmerges s.state (by simp [allStates, hprior]))

/-- Of two spellings the one that comes first counts. The filter that is spelled
right counts though it is empty, and what is chosen under another spelling of it
is not seen again. -/
example : (IntentDocument.normalize Configuration.default.normalize
      { intentType := .create
        mutation := { Mutation.empty with
          stateAdded :=
            [("filter_region", .string "north"), ("filters.status", .string ""),
              ("regionFilter", .string "south"),
              ("statusFilter", .string "open")] }
        prior := none
        executionGraph := none }).1.mutation.stateAdded
    = [("filters.region", .string "north"),
      ("filters.status",
        .string Configuration.default.normalize.filterSentinel)] := by
  decide +kernel

end IntentDocument

end IntentGraph
