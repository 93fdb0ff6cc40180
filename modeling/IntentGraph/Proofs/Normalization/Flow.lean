import IntentGraph.Proofs.Normalization.FilterKeys

/-!
# What renaming does to the flow of data

An action writes a key in one of three ways (`KeyWrite`): a step or the update
map spells it, a text of the configuration is taken as it, or it is the status
or the error key of what a call assigns. A run of renames does to the key that
is waited for, and to the one that is spelled, what `Key.meant` says, and to a
text what `Key.meantText` says (`KeyRename.foldl_onKey`,
`KeyRename.foldl_onKeyText`). A companion follows from the renamed text, however
its own spelling was renamed where an action waits for it.

So a flow from one action to another survives unless it hangs on a text that
refers to an ad-hoc spelling or on a companion of certain keys
(`KeyWrite.written_meant_iff`): `IntentDocument.flow_withFilterKeys`.
-/

namespace IntentGraph

/-! ## What a text stands for -/

namespace Key

/-- The name that a reference to a key gets. -/
def meantName? (key : List Char) : Option (List Char) :=
  (filterAlias? (String.ofList key)).map String.toList

/-- What a text that is taken as a key stands for: what is meant by an ad-hoc
spelling, or else the text with references to what its keys stand for. -/
def meantText (s : String) : String :=
  match filterAlias? s with
  | some new => new
  | none => String.ofList (Template.substitute meantName? s.toList)

theorem isKey_meantName? (key new : List Char) (h : meantName? key = some new) :
    Template.isKey new = true := by
  obtain ⟨meant, halias, rfl⟩ := Option.map_eq_some_iff.1 h
  exact isKey_meant halias

theorem meantText_of_alias {s new : String} (h : filterAlias? s = some new) :
    meantText s = new := by
  rw [meantText, h]

theorem toList_meantText {s : String} (h : filterAlias? s = none) :
    (meantText s).toList = Template.substitute meantName? s.toList := by
  rw [meantText, h]
  exact String.toList_ofList

theorem keysIn_meantText (s : String) :
    Template.keysIn (meantText s) = (Template.keysIn s).map meant := by
  cases halias : filterAlias? s with
  | some new =>
    rw [meantText_of_alias halias,
      Template.keysIn_eq_nil (not_mem_brace_meant halias),
      Template.keysIn_eq_nil (not_mem_brace_of_filterAlias? halias),
      List.map_nil]
  | none =>
    rw [Template.keysIn, toList_meantText halias,
      Template.keys_substitute isKey_meantName?, Template.keysIn]
    congr 1
    funext key
    rw [meantName?, String.ofList_toList, meant]
    cases filterAlias? key <;> simp

/-- A text stands for itself iff it is no ad-hoc spelling and refers to none. -/
theorem meantText_eq_self_iff {s : String} :
    meantText s = s ↔ filterAlias? s = none
      ∧ ∀ key ∈ Template.keysIn s, filterAlias? key = none := by
  constructor
  · intro hself
    refine ⟨?_, fun key hkey => ?_⟩
    · cases halias : filterAlias? s with
      | none => rfl
      | some new =>
        rw [meantText_of_alias halias] at hself
        rw [← hself, filterAlias?_of_filterAlias? halias] at halias
        cases halias
    · -- the keys of what a text stands for are not ad hoc
      rw [← hself, keysIn_meantText] at hkey
      obtain ⟨key, _, rfl⟩ := List.mem_map.1 hkey
      exact filterAlias?_meant key
  · rintro ⟨hnone, hkeys⟩
    apply String.toList_injective
    rw [toList_meantText hnone]
    refine Template.substitute_eq_of_forall fun key hkey => ?_
    rw [meantName?, String.ofList_toList, hkeys key hkey, Option.map_none]

/-- A text stands for what it stands for as a key iff it refers to no ad-hoc
spelling. -/
theorem meantText_eq_meant_iff {s : String} :
    meantText s = meant s
      ↔ ∀ key ∈ Template.keysIn s, filterAlias? key = none := by
  cases halias : filterAlias? s with
  | some new =>
    rw [meantText_of_alias halias, meant, halias, Option.getD_some,
      Template.keysIn_eq_nil (not_mem_brace_of_filterAlias? halias)]
    simp
  | none =>
    rw [meant_eq_self_iff.2 halias, meantText_eq_self_iff]
    simp [halias]

end Key

/-! ## A run of renames -/

namespace KeyRename

variable {r : KeyRename}

section rename

variable (hr : Key.filterAlias? r.old = some r.new)
include hr

/-- A reference that was renamed is left alone by what is meant. -/
theorem substitute_substitute_single (piece : Template.Piece) :
    (piece.substitute (Template.single r.old.toList r.new.toList)).substitute
      Key.meantName?
      = piece.substitute Key.meantName? := by
  rcases piece with c | ⟨key, spelling⟩
  · rfl
  · by_cases hkey : key = r.old.toList
    · have hold : Key.meantName? key = some r.new.toList := by
        rw [Key.meantName?, hkey, String.ofList_toList, hr, Option.map_some]
      have hnew : Key.meantName? r.new.toList = none := by
        rw [Key.meantName?, String.ofList_toList,
          Key.filterAlias?_of_filterAlias? hr, Option.map_none]
      simp only [Template.Piece.substitute, Template.single,
        if_pos hkey, hold, hnew]
    · simp only [Template.Piece.substitute, Template.single, if_neg hkey]

/-- A rename brings a text nearer to what it stands for. -/
theorem meantText_onKeyText (s : String) :
    Key.meantText (r.onKeyText s) = Key.meantText s := by
  by_cases hs : s = r.old
  · have hnew : Key.meantText r.new = r.new := by
      rw [Key.meantText_eq_self_iff,
        Template.keysIn_eq_nil (Key.not_mem_brace_meant hr)]
      exact ⟨Key.filterAlias?_of_filterAlias? hr, nofun⟩
    rw [hs, onKeyText_old hr, hnew, Key.meantText_of_alias hr]
  · have htext : r.onKeyText s = Template.renameInString r.old r.new s := by
      rw [onKeyText, onKey, if_neg hs]
    by_cases hsame : r.onKeyText s = s
    · rw [hsame]
    · -- a text in which a reference changed has braces before and after
      have hbefore : Key.filterAlias? s = none := by
        by_contra halias
        obtain ⟨new, hnew⟩ := Option.ne_none_iff_exists'.1 halias
        refine hsame (htext.trans ((renameInString_eq_self_iff hr s).2 ?_))
        rw [Template.keysIn_eq_nil (Key.not_mem_brace_of_filterAlias? hnew)]
        exact List.not_mem_nil
      have hafter : Key.filterAlias? (r.onKeyText s) = none := by
        by_contra halias
        obtain ⟨new, hnew⟩ := Option.ne_none_iff_exists'.1 halias
        rw [htext] at hnew
        exact hsame (htext.trans
          (Template.renameInString_eq_self
            (Key.not_mem_brace_of_filterAlias? hnew)))
      apply String.toList_injective
      rw [Key.toList_meantText hafter, Key.toList_meantText hbefore, htext,
        Template.toList_renameInString,
        Template.substitute_substitute
        (Template.isKey_of_single (Key.isKey_meant hr))
          (substitute_substitute_single hr)]

end rename

/-! ### What a run of renames does to a text -/

section run

variable {renames : List KeyRename}
  (halias : ∀ r ∈ renames, Key.filterAlias? r.old = some r.new)
include halias

/-- Renamed in its turn and in the turns of its references, a text becomes what
it stands for. -/
theorem foldl_onKeyText {s : String} (h : Pending (renames.map (·.old)) s)
    (hkeys : ∀ key ∈ Template.keysIn s, Pending (renames.map (·.old)) key) :
    renames.foldl (fun s r => r.onKeyText s) s = Key.meantText s := by
  induction renames generalizing s with
  | nil =>
    rw [List.foldl_nil,
      Key.meantText_eq_self_iff.2 ⟨h.resolve_left List.not_mem_nil,
        fun key hkey => (hkeys key hkey).resolve_left List.not_mem_nil⟩]
  | cons r renames ih =>
    obtain ⟨hr, hrest⟩ := List.forall_mem_cons.1 halias
    rw [List.foldl_cons, ih hrest (pending_onKeyText hr h),
      meantText_onKeyText hr]
    intro key hkey
    rw [onKeyText, Template.keysIn_renameInString (Key.isKey_meant hr),
      keysIn_onKey hr] at hkey
    obtain ⟨old, hold, rfl⟩ := List.mem_map.1 hkey
    exact pending_onKey hr (hkeys old hold)

end run

end KeyRename

/-! ## Ways to write a key -/

/-- A way in which an action writes a key. -/
inductive KeyWrite where
  /-- A step or the update map spells the key. -/
  | spelled (key : String)
  /-- A text of the configuration is taken as the key. -/
  | text (text : String)
  /-- The suffix of a companion follows the text that a call assigns. -/
  | companion (assigned suffix : String)
  deriving DecidableEq

namespace KeyWrite

/-- The key that is written. -/
def written : KeyWrite → String
  | spelled key => key
  | text s => s
  | companion assigned suffix => assigned ++ suffix

/-- The keys that the action mentions on this account. -/
def mentions : KeyWrite → List String
  | spelled key => [key]
  | text s => s :: Template.keysIn s
  | companion assigned _ => assigned :: Template.keysIn assigned

/-- The way after one rename. -/
def onRename (r : KeyRename) : KeyWrite → KeyWrite
  | spelled key => spelled (r.onKey key)
  | text s => text (r.onKeyText s)
  | companion assigned suffix => companion (r.onKeyText assigned) suffix

/-- The way after all renames. -/
def meant : KeyWrite → KeyWrite
  | spelled key => spelled (Key.meant key)
  | text s => text (Key.meantText s)
  | companion assigned suffix => companion (Key.meantText assigned) suffix

/-- What is written goes on as what it stands for: a text refers to no ad-hoc
spelling, and a companion belongs neither to the word alone nor to an ad-hoc
spelling that ends with the word. -/
def Kept : KeyWrite → Prop
  | spelled _ => True
  | text s => ∀ key ∈ Template.keysIn s, Key.filterAlias? key = none
  | companion assigned _ =>
    (∀ key ∈ Template.keysIn assigned, Key.filterAlias? key = none)
      ∧ assigned ∉ Key.filterWords
      ∧ (Key.filterAlias? assigned = none
        ∨ Key.nameAfterFilter? assigned.toList ≠ none)

/-- The companions are those of a status and of an error. -/
def HasSuffix : KeyWrite → Prop
  | companion _ suffix => suffix ∈ [Key.statusSuffix, Key.errorSuffix]
  | _ => True

theorem meantText_companion_iff {assigned suffix : String}
    (hsuffix : suffix ∈ [Key.statusSuffix, Key.errorSuffix]) :
    Key.meantText assigned ++ suffix = Key.meant (assigned ++ suffix)
      ↔ (companion assigned suffix).Kept := by
  by_cases hkeys : ∀ key ∈ Template.keysIn assigned, Key.filterAlias? key = none
  · rw [Key.meantText_eq_meant_iff.2 hkeys, eq_comm,
      Key.meant_companion_iff hsuffix]
    exact (and_iff_right hkeys).symm
  · refine iff_of_false (fun heq => hkeys ?_) fun hkept => hkeys hkept.1
    -- with a reference in it the companion is no ad-hoc spelling
    have hnone : Key.filterAlias? (assigned ++ suffix) = none := by
      by_contra halias
      obtain ⟨new, hnew⟩ := Option.ne_none_iff_exists'.1 halias
      have hbrace := Key.not_mem_brace_of_filterAlias? hnew
      rw [String.toList_append, List.mem_append, not_or] at hbrace
      refine hkeys ?_
      rw [Template.keysIn_eq_nil hbrace.1]
      exact nofun
    rw [Key.meant_eq_self_iff.2 hnone] at heq
    have hlist := congrArg String.toList heq
    rw [String.toList_append, String.toList_append] at hlist
    have hself := String.toList_injective (List.append_cancel_right hlist)
    exact (Key.meantText_eq_self_iff.1 hself).2

/-- What is written after the renames is what the key stands for. -/
theorem written_meant_iff {w : KeyWrite} (h : w.HasSuffix) :
    w.meant.written = Key.meant w.written ↔ w.Kept := by
  cases w with
  | spelled key => exact iff_of_true rfl trivial
  | text s => exact Key.meantText_eq_meant_iff
  | companion assigned suffix => exact meantText_companion_iff h

/-- A run of renames does to a way what it does to its text. -/
theorem foldl_onRename {renames : List KeyRename}
    (halias : ∀ r ∈ renames, Key.filterAlias? r.old = some r.new) {w : KeyWrite}
    (h : ∀ key ∈ w.mentions, KeyRename.Pending (renames.map (·.old)) key) :
    renames.foldl (fun w r => w.onRename r) w = w.meant := by
  cases w with
  | spelled key =>
    rw [List.foldl_hom spelled (fun _ _ => rfl),
      KeyRename.foldl_onKey halias (h key List.mem_cons_self), meant]
  | text s =>
    obtain ⟨hs, hkeys⟩ := List.forall_mem_cons.1 h
    rw [List.foldl_hom text (fun _ _ => rfl),
      KeyRename.foldl_onKeyText halias hs hkeys, meant]
  | companion assigned suffix =>
    obtain ⟨hs, hkeys⟩ := List.forall_mem_cons.1 h
    rw [List.foldl_hom (companion · suffix) (fun _ _ => rfl),
      KeyRename.foldl_onKeyText halias hs hkeys, meant]

end KeyWrite

namespace Action

/-- The ways in which an action writes a key. -/
def keyWrites (a : Action) : List KeyWrite :=
  if a.kind.isMutating then
    a.assignedKey?.toList.map .text
      ++ (if a.kind = .integrationCall then
          a.assignedKey?.toList.flatMap fun key =>
            [.companion key Key.statusSuffix, .companion key Key.errorSuffix]
        else [])
      ++ (a.configText? ConfigKey.stateKey).toList.map .text
      ++ a.updateKeys.map .spelled
      ++ (a.steps.filterMap Step.writtenKey?).map .spelled
  else []

theorem mem_mutatedKeys_iff_keyWrites {a : Action} {key : String} :
    key ∈ a.mutatedKeys ↔ ∃ w ∈ a.keyWrites, w.written = key := by
  rw [← List.mem_map, mutatedKeys, keyWrites, assignedKeys]
  by_cases hmutating : a.kind.isMutating = true
  · rw [if_pos hmutating, if_pos hmutating, KeySet.mem_ofList]
    by_cases hcall : a.kind = .integrationCall <;> cases a.assignedKey? <;>
      simp [hcall, KeyWrite.written, Key.status, Key.error, Function.comp_def]
  · rw [if_neg hmutating, if_neg hmutating, List.map_nil]
    simp

/-- A text that is taken as a key is one of the configuration. -/
theorem exists_configText? {a : Action} {s : String}
    (h : .text s ∈ a.keyWrites) :
    ∃ name, a.configText? name = some s := by
  unfold keyWrites at h
  split at h
  · simp only [List.mem_append, List.mem_map, Option.mem_toList,
      KeyWrite.text.injEq, exists_eq_right, reduceCtorEq, and_false,
      exists_false, or_false] at h
    rcases h with (h | h) | h
    · exact ⟨_, h⟩
    · split at h <;> simp at h
    · exact ⟨_, h⟩
  · cases h

/-- A companion is one of a call that assigns the text itself, too. -/
theorem of_companion_mem_keyWrites {a : Action} {assigned suffix : String}
    (h : .companion assigned suffix ∈ a.keyWrites) :
    .text assigned ∈ a.keyWrites
      ∧ suffix ∈ [Key.statusSuffix, Key.errorSuffix] := by
  unfold keyWrites at h ⊢
  split at h
  · next hmutating =>
    rw [if_pos hmutating]
    simp only [List.mem_append, List.mem_map, reduceCtorEq, and_false,
      exists_false, or_false, false_or] at h
    split at h
    · obtain ⟨s, hs, h⟩ := List.mem_flatMap.1 h
      have hcompanion :
          assigned = s ∧ suffix ∈ [Key.statusSuffix, Key.errorSuffix] := by
        simpa [and_or_left] using h
      obtain ⟨rfl, hsuffix⟩ := hcompanion
      refine ⟨?_, hsuffix⟩
      simp only [List.mem_append]
      exact .inl (.inl (.inl (.inl (List.mem_map_of_mem hs))))
    · cases h
  · cases h

theorem hasSuffix_of_mem_keyWrites {a : Action} {w : KeyWrite}
    (hw : w ∈ a.keyWrites) :
    w.HasSuffix := by
  cases w with
  | companion assigned suffix => exact (of_companion_mem_keyWrites hw).2
  | _ => trivial

/-- The references of the configuration are mentioned. -/
theorem mem_mentionedKeys_of_configText? {a : Action} {name s key : String}
    (h : a.configText? name = some s) (hkey : key ∈ Template.keysIn s) :
    key ∈ a.mentionedKeys := by
  obtain ⟨value, hvalue, hs⟩ :=
    Option.bind_eq_some_iff.1 (Option.filter_eq_some_iff.1 h).1
  have hstring : value = .string s := by
    cases value with
    | string t =>
      cases hs
      rfl
    | _ => cases hs
  have htemplated : key ∈ a.templatedKeys := by
    refine KeySet.mem_ofList.2
      (List.mem_flatMap.2 ⟨value, List.mem_append_left _ ?_, ?_⟩)
    · exact Fields.mem_values.2 ⟨name, Fields.mem_of_get? hvalue⟩
    · rw [hstring, Template.keysOf, Json.strings, List.flatMap_singleton]
      exact hkey
  refine List.mem_append_right _ (KeySet.mem_ofList.2 ?_)
  simp only [List.mem_append]
  exact .inl (.inl (.inl (.inl (.inl htemplated))))

/-- What an action mentions on account of what it writes is mentioned. -/
theorem mem_mentionedKeys_of_mem_keyWrites {a : Action} {w : KeyWrite}
    (hw : w ∈ a.keyWrites) :
    ∀ key ∈ w.mentions, key ∈ a.mentionedKeys := by
  have hwritten : ∀ {w : KeyWrite}, w ∈ a.keyWrites →
      w.written ∈ a.mentionedKeys := fun hw =>
    List.mem_append_left _ (mem_mutatedKeys_iff_keyWrites.2 ⟨_, hw, rfl⟩)
  have htext : ∀ {s : String}, .text s ∈ a.keyWrites →
      ∀ key ∈ s :: Template.keysIn s, key ∈ a.mentionedKeys := by
    intro s hs
    obtain ⟨name, hname⟩ := exists_configText? hs
    exact List.forall_mem_cons.2 ⟨hwritten hs,
      fun key => mem_mentionedKeys_of_configText? hname⟩
  cases w with
  | spelled key => exact List.forall_mem_singleton.2 (hwritten hw)
  | text s => exact htext hw
  | companion assigned suffix => exact htext (of_companion_mem_keyWrites hw).1

/-- Some key that `a` writes is one whose change `b` waits for. -/
def FlowsTo (a b : Action) : Prop := ∃ key ∈ a.mutatedKeys, key ∈ b.watchedKeys

instance (a b : Action) : Decidable (a.FlowsTo b) :=
  inferInstanceAs
    (Decidable (∃ key ∈ (a.mutatedKeys : List String), key ∈ b.watchedKeys))

theorem flowsTo_iff {a b : Action} :
    a.FlowsTo b ↔ ∃ w ∈ a.keyWrites, w.written ∈ b.watchedKeys := by
  simp [FlowsTo, mem_mutatedKeys_iff_keyWrites]

end Action

/-! ## Ways to write a key under renames -/

namespace KeyRename

variable {r : KeyRename}

theorem watchedKeys_onAction (a : Action) :
    (r.onAction a).watchedKeys = a.watchedKeys.map r.onKey :=
  filterMap_map_of_onKey (f := r.onTrigger)
    (fun trigger => by cases trigger <;> rfl) a.triggeredBy

theorem writtenKeys_onStep (steps : List Step) :
    (steps.map r.onStep).filterMap Step.writtenKey?
    = (steps.filterMap Step.writtenKey?).map r.onKey :=
  filterMap_map_of_onKey (fun step => by cases step <;> rfl) steps

theorem mem_keyWrites_onAction_iff
    (hr : Key.filterAlias? r.old = some r.new) {a : Action} {w : KeyWrite} :
    w ∈ (r.onAction a).keyWrites ↔ ∃ old ∈ a.keyWrites, old.onRename r = w := by
  have hkind : (r.onAction a).kind = a.kind := rfl
  have hassigned :
      (r.onAction a).assignedKey? = a.assignedKey?.map r.onKeyText :=
    configText?_onAction hr a (by decide)
  have hstate : (r.onAction a).configText? ConfigKey.stateKey
      = (a.configText? ConfigKey.stateKey).map r.onKeyText :=
    configText?_onAction hr a (by decide)
  have hsteps : (r.onAction a).steps.filterMap Step.writtenKey?
      = (a.steps.filterMap Step.writtenKey?).map r.onKey :=
    writtenKeys_onStep a.steps
  rw [Action.keyWrites, Action.keyWrites, hkind, hassigned, hstate, hsteps]
  split
  · simp only [List.mem_append, or_and_right, exists_or]
    refine or_congr (or_congr (or_congr (or_congr ?_ ?_) ?_) ?_) ?_
    · cases a.assignedKey? <;> simp [KeyWrite.onRename, eq_comm]
    · split
      · cases a.assignedKey? <;> simp [KeyWrite.onRename, eq_comm]
      · simp
    · cases a.configText? ConfigKey.stateKey
        <;> simp [KeyWrite.onRename, eq_comm]
    · simp [KeyWrite.onRename, mem_updateKeys_onAction_iff]
    · simp [KeyWrite.onRename]
  · simp

section run

variable {renames : List KeyRename}
  (halias : ∀ r ∈ renames, Key.filterAlias? r.old = some r.new)

theorem watchedKeys_foldl (renames : List KeyRename) (a : Action) :
    (renames.foldl (fun a r => r.onAction a) a).watchedKeys
      = a.watchedKeys.map fun key =>
        renames.foldl (fun key r => r.onKey key) key := by
  induction renames generalizing a with
  | nil => exact (List.map_id _).symm
  | cons r renames ih =>
    rw [List.foldl_cons, ih, watchedKeys_onAction, List.map_map]
    rfl

include halias in
theorem mem_keyWrites_foldl_iff {a : Action} {w : KeyWrite} :
    w ∈ (renames.foldl (fun a r => r.onAction a) a).keyWrites
      ↔ ∃ old ∈ a.keyWrites,
        renames.foldl (fun w r => w.onRename r) old = w := by
  induction renames generalizing a with
  | nil => simp
  | cons r renames ih =>
    obtain ⟨hr, hrest⟩ := List.forall_mem_cons.1 halias
    rw [List.foldl_cons, ih hrest]
    constructor
    · rintro ⟨mid, hmid, rfl⟩
      obtain ⟨old, hold, rfl⟩ := (mem_keyWrites_onAction_iff hr).1 hmid
      exact ⟨old, hold, rfl⟩
    · rintro ⟨old, hold, rfl⟩
      exact ⟨old.onRename r,
        (mem_keyWrites_onAction_iff hr).2 ⟨old, hold, rfl⟩, rfl⟩

end run

end KeyRename

namespace IntentDocument

/-- The action with the renames of the document. -/
def renamedAction (d : IntentDocument) (a : Action) : Action :=
  d.filterRenames.foldl (fun a r => r.onAction a) a

section

variable {d : IntentDocument}

theorem actions_withFilterKeys (d : IntentDocument) :
    d.withFilterKeys.mutation.actions
      = d.mutation.actions.map d.renamedAction := by
  rw [withFilterKeys, KeyRename.foldl_onDocument, Revision.actions_onDocument]
  rfl

theorem filterAlias?_of_mem_filterRenames :
    ∀ r ∈ d.filterRenames, Key.filterAlias? r.old = some r.new :=
  fun _ hr => (mem_filterRenames.1 hr).2

theorem pending_of_mem_mentionedKeys {a : Action} (ha : a ∈ d.mutation.actions)
    {key : String} (hkey : key ∈ a.mentionedKeys) :
    KeyRename.Pending (d.filterRenames.map (·.old)) key :=
  pending_filterRenames
    (mem_mentionedKeys.2 (.inr (.inr ⟨a, mem_allActions ha, hkey⟩)))

/-- The renamed action waits for what the keys stand for. -/
theorem watchedKeys_renamedAction {a : Action} (ha : a ∈ d.mutation.actions) :
    (d.renamedAction a).watchedKeys = a.watchedKeys.map Key.meant := by
  rw [renamedAction, KeyRename.watchedKeys_foldl]
  refine List.map_congr_left fun key hkey => ?_
  refine KeyRename.foldl_onKey filterAlias?_of_mem_filterRenames
    (pending_of_mem_mentionedKeys ha (List.mem_append_right _ ?_))
  exact KeySet.mem_ofList.2 (List.mem_append_right _ hkey)

/-- The renamed action writes in the ways in which the action wrote. -/
theorem mem_keyWrites_renamedAction_iff {a : Action}
    (ha : a ∈ d.mutation.actions) {w : KeyWrite} :
    w ∈ (d.renamedAction a).keyWrites ↔ ∃ old ∈ a.keyWrites, old.meant = w := by
  have hmeant : ∀ old ∈ a.keyWrites,
      d.filterRenames.foldl (fun w r => w.onRename r) old = old.meant :=
    fun old hold =>
      KeyWrite.foldl_onRename filterAlias?_of_mem_filterRenames fun key hkey =>
        pending_of_mem_mentionedKeys ha
          (Action.mem_mentionedKeys_of_mem_keyWrites hold key hkey)
  rw [renamedAction,
    KeyRename.mem_keyWrites_foldl_iff filterAlias?_of_mem_filterRenames]
  exact exists_congr fun old => and_congr_right fun hold => by
    rw [hmeant old hold]

/-- After the renames there is a flow iff something that is written then is what
a key stands for whose change is waited for. -/
theorem flowsTo_renamedAction_iff {a b : Action} (ha : a ∈ d.mutation.actions)
    (hb : b ∈ d.mutation.actions) :
    (d.renamedAction a).FlowsTo (d.renamedAction b)
      ↔ ∃ w ∈ a.keyWrites, ∃ key ∈ b.watchedKeys,
        w.meant.written = Key.meant key := by
  rw [Action.flowsTo_iff, watchedKeys_renamedAction hb]
  constructor
  · rintro ⟨w', hw', hwatched⟩
    obtain ⟨w, hw, rfl⟩ := (mem_keyWrites_renamedAction_iff ha).1 hw'
    obtain ⟨key, hkey, heq⟩ := List.mem_map.1 hwatched
    exact ⟨w, hw, key, hkey, heq.symm⟩
  · rintro ⟨w, hw, key, hkey, heq⟩
    refine ⟨w.meant, (mem_keyWrites_renamedAction_iff ha).2 ⟨w, hw, rfl⟩, ?_⟩
    rw [heq]
    exact List.mem_map_of_mem hkey

end

/-- A flow survives the renames where what is written is kept. There is a flow
after the renames iff something that is written then is what a watched key
stands for, and what is written goes on as what it stands for iff it is kept. -/
theorem flow_withFilterKeys (d : IntentDocument) {i j : Nat} {a b : Action}
    (ha : d.mutation.actions[i]? = some a)
    (hb : d.mutation.actions[j]? = some b) :
    ∃ a' b', d.withFilterKeys.mutation.actions[i]? = some a'
      ∧ d.withFilterKeys.mutation.actions[j]? = some b'
      ∧ ((∃ w ∈ a.keyWrites, w.Kept ∧ w.written ∈ b.watchedKeys) →
        a'.FlowsTo b')
      ∧ (a'.FlowsTo b'
        ↔ ∃ w ∈ a.keyWrites, ∃ key ∈ b.watchedKeys,
          w.meant.written = Key.meant key)
      ∧ ∀ w ∈ a.keyWrites, w.meant.written = Key.meant w.written ↔ w.Kept := by
  have hflow :=
    flowsTo_renamedAction_iff (List.mem_of_getElem? ha)
      (List.mem_of_getElem? hb)
  have hkept :
      ∀ w ∈ a.keyWrites, w.meant.written = Key.meant w.written ↔ w.Kept :=
    fun w hw => KeyWrite.written_meant_iff
      (Action.hasSuffix_of_mem_keyWrites hw)
  refine ⟨d.renamedAction a, d.renamedAction b, ?_, ?_, ?_, hflow, hkept⟩
  · rw [actions_withFilterKeys, List.getElem?_map, ha, Option.map_some]
  · rw [actions_withFilterKeys, List.getElem?_map, hb, Option.map_some]
  · rintro ⟨w, hw, hkeep, hwatched⟩
    exact hflow.2 ⟨w, hw, w.written, hwatched, (hkept w hw).2 hkeep⟩

/-- A call at the start of the app that assigns a key. -/
def loadRegions (assigned : String) : Action :=
  { Action.bare "load_regions" .integrationCall with
    config := [(ConfigKey.assignTo, .string assigned)]
    triggeredBy := [.lifecycle Lifecycle.appStart] }

/-- A workflow that waits for a key. -/
def showStatus (watched : String) : Action :=
  { Action.bare "show_status" .workflow with
    triggeredBy := [.stateChange watched] }

/-- A call, and a workflow that waits for its status. -/
def regionPanel (assigned : String) : IntentDocument where
  intentType := .create
  mutation := { Mutation.empty with
    actionsAdded := [loadRegions assigned, showStatus (Key.status assigned)] }
  prior := none
  executionGraph := none

/-- With the word before the name the status key is renamed as the key is. -/
theorem flow_kept_regionPanel :
    (regionPanel "filterRegion").mutation.actions
        = [loadRegions "filterRegion", showStatus "filterRegionStatus"]
      ∧ (regionPanel "filterRegion").withFilterKeys.mutation.actions
        = [loadRegions "filters.region", showStatus "filters.regionStatus"]
      ∧ (loadRegions "filters.region").FlowsTo
        (showStatus "filters.regionStatus") := by
  have hbefore : (regionPanel "filterRegion").mutation.actions
      = [loadRegions "filterRegion", showStatus "filterRegionStatus"] := by
        decide +kernel
  have hafter : (regionPanel "filterRegion").withFilterKeys.mutation.actions
      = [loadRegions "filters.region", showStatus "filters.regionStatus"] := by
        decide +kernel
  refine ⟨hbefore, hafter, ?_⟩
  obtain ⟨a', b', ha', hb', hkept, _⟩ :=
    flow_withFilterKeys (regionPanel "filterRegion") (congrArg (·[0]?) hbefore)
      (congrArg (·[1]?) hbefore)
  rw [hafter] at ha' hb'
  cases ha'
  cases hb'
  have hkeep : (KeyWrite.companion "filterRegion" Key.statusSuffix).Kept :=
    ⟨by decide +kernel, by decide +kernel, .inr (by decide +kernel)⟩
  exact hkept ⟨.companion "filterRegion" Key.statusSuffix,
    by decide +kernel, hkeep, by decide +kernel⟩

/-- With the word behind the name the call writes another status key than
before, and the workflow waits for a key that nothing writes. -/
theorem flow_lost_regionPanel :
    (regionPanel "regionFilter").mutation.actions
        = [loadRegions "regionFilter", showStatus "regionFilterStatus"]
      ∧ (loadRegions "regionFilter").FlowsTo (showStatus "regionFilterStatus")
      ∧ (regionPanel "regionFilter").withFilterKeys.mutation.actions
        = [loadRegions "filters.region", showStatus "regionFilterStatus"]
      ∧ ¬ (loadRegions "filters.region").FlowsTo
        (showStatus "regionFilterStatus") := by
  decide +kernel

end IntentDocument

end IntentGraph
