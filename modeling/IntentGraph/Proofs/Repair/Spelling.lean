import IntentGraph.Proofs.Normalization.FilterKeys
import IntentGraph.Proofs.Repair.Parts
import IntentGraph.Proofs.Repair.Validity

/-!
# How repair spells keys

Repair works on a mutation in which no key is spelled ad hoc. What it makes
actions wait for and what its own actions read is spelled in the mutation or is
a companion of an assigned key (`View.Origin.read`). What its own actions write
is read by components, with one exception: a normalizer writes a key that is
derived from the name of the result, and that may be spelled ad hoc
(`View.Origin.written`).
-/

namespace IntentGraph

/-! ## What synthetic actions read -/

section synthetic

variable {a : Action} {semantic key : String}

/-- An action that repair makes refers to no key by a template. -/
theorem templatedKeys_synthetic (hsemantic : '\x7b' ∉ semantic.toList)
    (hconfig : a.config = (Action.synthetic a.id a.kind semantic).config)
    (hsteps : ∀ step ∈ a.steps, step.payloads = []) : a.templatedKeys = ∅ := by
  have hmade : '\x7b' ∉ ConfigKey.madeByRepair.toList := by decide
  have hvalues : a.config.values.flatMap Template.keysOf = [] := by
    rw [hconfig]
    simp [Action.synthetic, Fields.values, Template.keysOf, Json.strings,
      Template.keysIn_eq_nil hsemantic, Template.keysIn_eq_nil hmade]
  have hpayloads : a.steps.flatMap Step.payloads = [] :=
    List.flatMap_eq_nil_iff.2 hsteps
  rw [Action.templatedKeys, List.flatMap_append, hvalues, hpayloads]
  rfl

/-- An action that repair makes reads its inputs, what it copies, and what it
waits for. -/
theorem mem_readKeys_synthetic (hsemantic : '\x7b' ∉ semantic.toList)
    (hconfig : a.config = (Action.synthetic a.id a.kind semantic).config)
    (hsteps : ∀ step ∈ a.steps, step.payloads = []) :
    key ∈ a.readKeys ↔ key ∈ a.inputs.getD []
      ∨ key ∈ a.steps.filterMap Step.sourceKey?
      ∨ key ∈ a.watchedKeys := by
  have hnone : ∀ name : String, name ≠ ConfigKey.semantic →
      name ≠ ConfigKey.synthetic →
      a.configText? name = none := by
    intro name hname hname'
    rw [Action.configText?, hconfig, View.get?_synthetic _ _ _ hname hname']
    rfl
  simp [Action.readKeys, templatedKeys_synthetic hsemantic hconfig hsteps,
    hnone ConfigKey.origin (by decide) (by decide),
    hnone ConfigKey.source (by decide) (by decide)]

end synthetic

theorem UnreadOutput.mem_readKeys_normalizer {o : UnreadOutput}
    {id key : String} :
    key ∈ (o.normalizer id).readKeys ↔ key = o.key := by
  have hreads : key ∈ (o.normalizer id).readKeys ↔ _ :=
    mem_readKeys_synthetic (by decide) rfl
      (by simp [normalizer, Step.copy, Step.payloads])
  rw [hreads]
  simp [normalizer, Action.watchedKeys, Trigger.stateKey?, Step.copy,
    Step.sourceKey?]

theorem MirrorPlan.mem_readKeys_mirror {p : MirrorPlan} {id key : String} :
    key ∈ (p.mirror id).readKeys ↔ key = p.status ∨ key = p.error := by
  have hreads : key ∈ (p.mirror id).readKeys ↔ _ :=
    mem_readKeys_synthetic (by decide) rfl
      (by simp [mirror, Step.copy, Step.payloads])
  rw [hreads]
  simp [mirror, Action.watchedKeys, Trigger.stateKey?, Step.copy,
    Step.sourceKey?]

/-! ## How keys are spelled after repair -/

/-- How a key may be spelled that an action writes after repair. -/
inductive Action.MayWrite (sentinel : String) (a : Action) (key : String) : Prop
  /-- Right, or as in the sentinel. -/
  | spelled : SpelledWith sentinel key → MayWrite sentinel a key
  /-- As the status or the error key of a call that assigns the word alone. -/
  | companion {word : String} : word ∈ Key.filterWords →
    a.assignedKey? = some word → key ∈ [Key.status word, Key.error word] →
    MayWrite sentinel a key
  /-- As the key that a normalizer derives. -/
  | derived {o : UnreadOutput} : MadeFrom UnreadOutput.normalizer o a →
    key = Key.derived o.key → MayWrite sentinel a key

theorem mayWrite_of_spelledRight {sentinel key : String} {a : Action}
    (h : (Standard.spelledRight sentinel).action a)
    (hkey : key ∈ a.mutatedKeys) :
    a.MayWrite sentinel key := by
  rcases written_of_spelledRight h hkey
    with hright | ⟨word, hword, hassigned, hkeys⟩
  · exact .spelled (.inl hright)
  · exact .companion hword hassigned hkeys

/-- A component that loses events mentions no more keys. -/
theorem spelledRight_dropEvents {sentinel : String} {c : Component}
    (h : (Standard.spelledRight sentinel).component c) (ids : List String) :
    (Standard.spelledRight sentinel).component (c.dropEvents ids) := by
  refine ⟨h.1, fun key hkey => ?_⟩
  obtain ⟨e, he, hupdate⟩ := List.mem_filterMap.1 hkey
  exact h.2 key (List.mem_filterMap.2 ⟨e, (List.mem_filter.1 he).1, hupdate⟩)

namespace View

variable {v : View} {reach : Reachability} {config : Configuration}
  {sentinel : String} {a : Action}

/-- Only calls that were there are calls. -/
theorem Origin.exists_of_call (h : v.Origin reach config a)
    (hcall : a.kind = .integrationCall) :
    ∃ b ∈ v.mutation.actions, b.kind = .integrationCall
      ∧ b.assignedKey? = a.assignedKey? := by
  cases h with
  | kept hb hwaits =>
    obtain ⟨triggers, rfl, _⟩ := hwaits
    exact ⟨_, hb, hcall, rfl⟩
  | normalizer hmade =>
    rw [hmade.1] at hcall
    cases hcall
  | mirror hmade =>
    rw [hmade.1] at hcall
    cases hcall

section spelled

variable (hspelled : ∀ b ∈ v.mutation.actions,
  (Standard.spelledRight sentinel).action b)
include hspelled

/-- The keys that calls assign are spelled right. -/
theorem CallAssigns.filterAlias?_eq_none {key : String}
    (h : (v.repaired reach config).CallAssigns key) :
    Key.filterAlias? key = none := by
  obtain ⟨a, ha, hcall, hkey⟩ := h
  obtain ⟨b, hb, hcall', hkey'⟩ := (origin_of_mem ha).exists_of_call hcall
  have hmutating : b.kind.isMutating = true := by rw [hcall']; rfl
  refine (hspelled b hb).1 key ?_
  rw [Action.spelledWrites, if_pos hmutating, hkey', hkey]
  simp

/-- What an action reads after repair is spelled right, or is a companion of an
assigned key. -/
theorem Origin.read (h : v.Origin reach config a) {key : String}
    (hkey : key ∈ a.readKeys) :
    Key.filterAlias? key = none
      ∨ ∃ b ∈ (v.repaired reach config).mutation.actions,
        key ∈ b.companionKeys := by
  cases h with
  | kept hb hwaits =>
    rcases hwaits.mem_readKeys hkey with hkey | ⟨b', hb', htemplated⟩
    · exact .inl ((hspelled _ hb).2 key hkey)
    · have hread : key ∈ b'.readKeys := by simp [Action.readKeys, htemplated]
      exact .inl ((hspelled b' hb').2 key hread)
  | normalizer hmade hcall =>
    rw [hmade.1, UnreadOutput.mem_readKeys_normalizer] at hkey
    exact .inl (hkey ▸ CallAssigns.filterAlias?_eq_none hspelled hcall)
  | mirror hmade hcall =>
    obtain ⟨b, hb, hkind, hassigned⟩ := hcall
    rw [hmade.1, MirrorPlan.mem_readKeys_mirror] at hkey
    refine .inr ⟨b, hb, ?_⟩
    rw [Action.companionKeys, if_pos hkind, hassigned]
    simpa [MirrorPlan.status, MirrorPlan.error] using hkey

/-- What an action writes after repair was written before, or is read by
components, or is the key that a result is normalized into. -/
theorem Origin.written (h : v.Origin reach config a)
    (hreads : ∀ key ∈ (v.repaired reach config).componentReadKeys,
      SpelledWith sentinel key)
    {key : String} (hkey : key ∈ a.mutatedKeys) : a.MayWrite sentinel key := by
  cases h with
  | kept hb hwaits =>
    have hspelled' := hspelled _ hb
    obtain ⟨triggers, rfl, _⟩ := hwaits
    rcases written_of_spelledRight hspelled' hkey
      with hright | ⟨word, hword, hassigned, hkeys⟩
    · exact .spelled (.inl hright)
    · exact .companion hword hassigned hkeys
  | @normalizer o hmade =>
    rw [hmade.1, o.mutatedKeys_normalizer, KeySet.mem_ofList,
      List.mem_singleton] at hkey
    exact .derived hmade hkey
  | @mirror p hmade _ hstatus herror =>
    rw [hmade.1, p.mutatedKeys_mirror, KeySet.mem_ofList] at hkey
    rcases List.mem_pair.1 hkey with rfl | rfl
    · exact .spelled (hreads _ hstatus)
    · exact .spelled (hreads _ herror)

end spelled

end View

end IntentGraph
