import IntentGraph.Normalization
import IntentGraph.Proofs.Identifier

/-!
# Renames as one revision, and ids after normalization

A run of renames revises a document as a whole, part by part
(`KeyRename.foldl_onDocument`). The first pass of normalization brings every
action id into canonical spelling, and no later pass touches an id:
`IntentDocument.ids_normalize`.
-/

namespace IntentGraph

/-! ## A run of renames -/

theorem Revision.onDocument_onDocument (r r' : Revision) (d : IntentDocument) :
    r'.onDocument (r.onDocument d)
      = (⟨r'.action ∘ r.action, r'.component ∘ r.component, r'.page ∘ r.page,
          r'.state ∘ r.state⟩ : Revision).onDocument d := by
  cases hprior : d.prior <;> simp [onDocument, onMutation, onSnapshot, hprior]

/-- Renames that are carried out one after the other, as one revision. -/
def KeyRename.run (renames : List KeyRename) : Revision where
  action a := renames.foldl (fun a r => r.onAction a) a
  component c := renames.foldl (fun c r => r.onComponent c) c
  page := id
  state fields := renames.foldl (fun fields r => r.onMap fields) fields

theorem KeyRename.foldl_onDocument (renames : List KeyRename)
    (d : IntentDocument) :
    renames.foldl (fun d r => r.revision.onDocument d) d
      = (run renames).onDocument d := by
  induction renames generalizing d with
  | nil =>
    obtain ⟨_, _, prior, _⟩ := d
    cases prior <;> simp [run, Revision.onDocument, Revision.onMutation,
      Revision.onSnapshot]
  | cons r renames ih =>
    rw [List.foldl_cons, ih, Revision.onDocument_onDocument]
    rfl

/-! ## Ids -/

/-- The ids of the mutation's actions. -/
def IntentDocument.mutationIds (d : IntentDocument) : List String :=
  d.mutation.actions.map (·.id)

/-- A revision of the actions revises the list of them. -/
theorem Revision.actions_onDocument (r : Revision) (d : IntentDocument) :
    (r.onDocument d).mutation.actions = d.mutation.actions.map r.action := by
  simp [Revision.onDocument, Revision.onMutation, Mutation.actions]

/-- A revision that keeps the id of each action keeps the ids of a document. -/
theorem Revision.mutationIds_onDocument {r : Revision}
    (keeps : ∀ a, (r.action a).id = a.id) (d : IntentDocument) :
    (r.onDocument d).mutationIds = d.mutationIds := by
  rw [IntentDocument.mutationIds, Revision.actions_onDocument, List.map_map,
    IntentDocument.mutationIds]
  exact List.map_congr_left fun a _ => keeps a

namespace Action

theorem id_withMigratedKind (settings : NormalizeSettings) (a : Action) :
    (a.withMigratedKind settings).id = a.id := by
  rw [withMigratedKind]
  split <;> rfl

theorem id_withCopyStep (a : Action) : a.withCopyStep.id = a.id := by
  rw [withCopyStep]
  split <;> rfl

end Action

/-- Renames of keys leave ids alone. -/
theorem IntentDocument.mutationIds_withFilterKeys (d : IntentDocument) :
    d.withFilterKeys.mutationIds = d.mutationIds := by
  rw [withFilterKeys, KeyRename.foldl_onDocument]
  refine Revision.mutationIds_onDocument (fun a => ?_) d
  exact List.foldlRecOn d.filterRenames _
    (motive := fun a' : Action => a'.id = a.id) rfl fun _ hid _ _ => hid

/-- The ids of a normalized document are the canonical spellings of its ids. -/
theorem IntentDocument.ids_normalize (settings : NormalizeSettings)
    (d : IntentDocument) :
    (d.normalize settings).1.mutationIds = d.mutationIds.map canonicalId := by
  simp only [normalize, Pass.all, Pass.run, Pass.ofActions]
  rw [Revision.mutationIds_onDocument fun _ => rfl,
    Revision.mutationIds_onDocument fun _ => rfl, mutationIds_withFilterKeys,
    Revision.mutationIds_onDocument Action.id_withCopyStep,
    Revision.mutationIds_onDocument (Action.id_withMigratedKind settings),
    mutationIds, Revision.actions_onDocument, List.map_map,
    mutationIds, List.map_map]
  rfl

/-- The ids of a normalized document are canonical. -/
theorem IntentDocument.isCanonical_normalize {settings : NormalizeSettings}
    {d : IntentDocument} {a : Action}
    (ha : a ∈ (d.normalize settings).1.mutation.actions) :
    IsCanonical a.id := by
  have hid : a.id ∈ (d.normalize settings).1.mutationIds :=
    List.mem_map_of_mem ha
  rw [ids_normalize] at hid
  obtain ⟨raw, _, hraw⟩ := List.mem_map.1 hid
  exact hraw ▸ isCanonical_canonicalId raw

end IntentGraph
