import IntentGraph.Audit
import IntentGraph.Configuration
import IntentGraph.Key.Stem
import IntentGraph.Validation.Actions

/-!
# Synthetic actions

Repair makes two sorts of actions.

* A normalizer copies the result of a call to an integration that nobody reads
  to a derived key, and so is a reader of it.
* A status mirror copies the status and the error of a call to the keys that a
  component expects them under, when the component's spelling differs from the
  call's but has the same stem.

Their ids are canonical and not taken (`freshId`).
-/

namespace IntentGraph

/-! ## Fresh ids -/

/-- The canonical spelling of a base, or else the first of it with `_2`, `_3`, …
that is not taken. -/
def freshId (taken : List String) (base : String) : String :=
  let id := canonicalId base
  if taken.contains id then
    (((List.range (taken.length + 1)).map fun n =>
      id ++ "_" ++ toString (n + 2)).find? fun candidate =>
        !taken.contains candidate).getD id
  else id

/-- An action that repair makes. -/
def Action.synthetic (id : String) (kind : ActionKind) (semantic : String) :
    Action :=
  { Action.bare id kind with
    config := [(ConfigKey.semantic, .string semantic),
      (ConfigKey.synthetic, .string ConfigKey.madeByRepair)] }

/-- A key as a part of an id. -/
def keyInId (key : String) : String :=
  String.ofList (key.toList.map fun c => if c = '.' then '_' else c)

/-! ## Normalizers -/

/-- The semantic of a normalizer. -/
def normalizerSemantic : String := "normalizer"

/-- A result that nobody reads: the call that assigns it, and its key. -/
structure UnreadOutput where
  source : String
  key : String
  deriving DecidableEq

namespace UnreadOutput

/-- The normalizer of a result, under an id. -/
def normalizer (o : UnreadOutput) (id : String) : Action :=
  { Action.synthetic id .internal normalizerSemantic with
    steps := [Step.copy (Key.derived o.key) o.key]
    triggeredBy := [.stateChange o.key]
    inputs := some [o.key] }

/-- The base of a normalizer's id. -/
def idBase (o : UnreadOutput) : String := "normalize_" ++ keyInId o.key

/-- The record of a normalizer. -/
def record (o : UnreadOutput) (id : String) : AuditRecord :=
  ⟨.repair, some id, .synthesizeNormalizer,
    "'" ++ o.key ++ "' from '" ++ o.source
      ++ "' had no consumer; normalized into '"
      ++ Key.derived o.key ++ "'"⟩

end UnreadOutput

/-- The results that nobody reads, one for every key. -/
def View.unreadOutputs (v : View) (effectPrefixes : List String) :
    List UnreadOutput :=
  distinctBy (·.key) (v.mutation.actions.filterMap fun a =>
    ((View.expectedOutput? effectPrefixes a).filter fun key =>
      !v.isConsumed key a.id).map (⟨a.id, ·⟩))

/-! ## Status mirrors -/

/-- The semantic of a status mirror. -/
def mirrorSemantic : String := "status_mirror"

/-- A call whose status and error are expected under other keys. -/
structure MirrorPlan where
  dataKey : String
  uiStatus : String
  uiError : String
  deriving DecidableEq

namespace MirrorPlan

/-- The status key of the call. -/
def status (p : MirrorPlan) : String := Key.status p.dataKey

/-- The error key of the call. -/
def error (p : MirrorPlan) : String := Key.error p.dataKey

/-- The mirror of a plan, under an id. -/
def mirror (p : MirrorPlan) (id : String) : Action :=
  { Action.synthetic id .workflow mirrorSemantic with
    steps := [Step.copy p.uiStatus p.status, Step.copy p.uiError p.error]
    triggeredBy := [.stateChange p.status, .stateChange p.error]
    inputs := some [p.status, p.error] }

/-- The base of a mirror's id. -/
def idBase (p : MirrorPlan) : String :=
  "mirror_" ++ keyInId p.dataKey ++ "_status"

/-- The record of a mirror. -/
def record (p : MirrorPlan) (id : String) : AuditRecord :=
  ⟨.repair, some id, .synthesizeStatusMirror,
    "'" ++ p.status ++ "'/'" ++ p.error ++ "' mirrored into '" ++ p.uiStatus
      ++ "'/'" ++ p.uiError ++ "'"⟩

end MirrorPlan

namespace View

/-- The keys that some action or some component writes or that the executor
keeps. -/
def ownedKeys (v : View) : List String :=
  v.executorManagedKeys ++ v.actions.flatMap (·.mutatedKeys.members)
    ++ v.components.flatMap (·.ownWrites)

/-- Whether components read a key that nobody writes. -/
def isMirrorable (v : View) (key : String) : Bool :=
  v.componentReadKeys.contains key && !v.ownedKeys.contains key

/-- The status and error keys that components expect for a data key, if nobody
writes them. -/
def expectedStatus? (v : View) (dataKey : String) : Option (String × String) :=
  v.componentReadKeys.members.findSome? fun key => do
    let base ← Key.statusBase? key
    if key ≠ Key.status dataKey ∧ Key.stem key = Key.stem dataKey
        ∧ v.isMirrorable key ∧ v.isMirrorable (Key.error base) then
      return (key, Key.error base)
    else none

/-- The mirror that a call to an integration lacks. -/
def mirrorPlan? (v : View) (a : Action) : Option MirrorPlan := do
  if a.kind ≠ .integrationCall then none
  let key ← a.assignedKey?
  if v.isConsumed (Key.status key) a.id
      || v.isConsumed (Key.error key) a.id then
    none
  let (uiStatus, uiError) ← v.expectedStatus? key
  return ⟨key, uiStatus, uiError⟩

/-- The mirrors that the calls of the mutation lack. -/
def mirrorPlans (v : View) : List MirrorPlan :=
  v.mutation.actions.filterMap v.mirrorPlan?

end View

end IntentGraph
