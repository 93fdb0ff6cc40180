import IntentGraph.Execution.DryRun
import IntentGraph.Execution.GraphBuild
import IntentGraph.Normalization
import IntentGraph.Repair
import IntentGraph.Validation.Report

/-!
# Compilation

The whole way from an intent document to a validated document with its execution
graph. A document is normalized, validated as it came, repaired, validated as
repaired, and must then have no action that cannot run; its graph is built last,
and run dry.

* `Rejection` says why a document is refused.
* `IntentDocument.compile` is the compilation.
-/

namespace IntentGraph

/-! ## Refusal -/

/-- Why a document is refused. -/
inductive Rejection where
  | finding (finding : Finding)
  | unreachable (action : String)
  | shortage (shortage : NodeShortage)
  deriving DecidableEq

namespace Rejection

/-- The wording of the reason. -/
def reason : Rejection → String
  | .finding f => f.reason
  | .unreachable action =>
    "action '" ++ action ++ "' is unreachable from any trigger"
  | .shortage s => s.message

/-- The action concerned. -/
def actionId? : Rejection → Option String
  | .finding f => f.violation.actionId?
  | .unreachable action => some action
  | .shortage _ => none

/-- The kinds that would have been allowed. -/
def allowedKinds? : Rejection → Option (List String)
  | .finding f => f.violation.allowedKinds?
  | .unreachable _ | .shortage _ => none

/-- Writes a rejection. -/
def encode (r : Rejection) : Json := .record [
  Entry.always "kind" (.string "InvalidIntentGraph"),
  Entry.always "reason" (.string r.reason),
  Entry.text? "actionId" r.actionId?,
  Entry.present "allowedKinds" Json.ofStrings r.allowedKinds?,
  Entry.always "status" (.string "rejected")]

end Rejection

namespace Findings

/-- The rejection of a document with these findings, if one of them is fatal. -/
def rejection? (findings : Findings) : Option Rejection :=
  findings.fatal?.map .finding

/-- The advisories of a document that is not refused. -/
def accept (findings : Findings) : Except Rejection Findings :=
  match findings.rejection? with
  | some rejection => .error rejection
  | none => .ok findings.advisories

end Findings

/-! ## Compilation -/

/-- What a compilation yields. -/
structure Compilation where
  document : IntentDocument
  repairLog : AuditLog
  advisories : Findings
  diagnostics : List Diagnostic
  reachabilityBefore : Reachability
  reachabilityAfter : Reachability
  simulation : RunReport
  deriving DecidableEq

namespace Compilation

/-- The entries of a compilation. -/
def entries (c : Compilation) : Fields := [
  ("document", c.document.encode),
  ("repairLog", c.repairLog.encode),
  ("advisories", .ofList Finding.encode c.advisories),
  ("diagnostics", .ofList Diagnostic.encode c.diagnostics),
  ("reachabilityBefore", c.reachabilityBefore.encode),
  ("reachabilityAfter", c.reachabilityAfter.encode),
  ("simulation", c.simulation.encode)]

/-- Writes a compilation. -/
def encode (c : Compilation) : Json := .object c.entries

/-- Writes a compilation together with the time at which it was made. -/
def encodeAt (c : Compilation) (time : String) : Json :=
  .object (c.entries ++ [("compiledAt", .string time)])

end Compilation

namespace IntentDocument

/-- The findings of a mode on a document. -/
def validate (config : Configuration) (mode : ValidationMode)
    (d : IntentDocument) : Findings :=
  (View.ofDocument d).validate config mode

/-- What can run in a document. -/
def reachability (d : IntentDocument) : Reachability :=
  (View.ofDocument d).reachability

/-- The document repaired on the strength of an analysis, and the records of the
repair. -/
def repair (config : Configuration) (reach : Reachability)
    (d : IntentDocument) :
    IntentDocument × AuditLog :=
  let r := (View.ofDocument d).repair reach config
  ({ d with mutation := r.mutation }, r.log)

/-- The document repaired if the configuration says so, and the records of the
repair. -/
def repairIfEnabled (config : Configuration) (d : IntentDocument) :
    IntentDocument × AuditLog :=
  if config.repair.enabled then d.repair config d.reachability else (d, [])

/-- The execution graph of a document. -/
def buildGraph (catalog : Catalog) (d : IntentDocument) :
    Except NodeShortage GraphBuild :=
  (View.ofDocument d).buildGraph catalog

/-- The dry run of a document. -/
def simulate (budget : Nat) (d : IntentDocument) : RunReport :=
  (View.ofDocument d).simulate budget

/-- What can run in a document in which everything has to. -/
def requireClosed (d : IntentDocument) : Except Rejection Reachability :=
  match d.reachability.orphans with
  | [] => .ok d.reachability
  | orphan :: _ => .error (.unreachable orphan)

/-- Compiles a document. -/
def compile (config : Configuration) (d : IntentDocument) :
    Except Rejection Compilation := do
  let (normal, normalized) := d.normalize config.normalize
  let _ ← (normal.validate config .structural).accept
  let (repaired, mended) := normal.repairIfEnabled config
  let advisories ← (repaired.validate config .full).accept
  let after ← repaired.requireClosed
  let built ← (repaired.buildGraph config.capabilities).mapError .shortage
  let simulation := repaired.simulate config.simulation.stepBudget
  return {
    document := { repaired with executionGraph := some built.graph }
    repairLog := normalized ++ mended
    advisories
    diagnostics := built.diagnostics ++ simulation.diagnostic?.toList
    reachabilityBefore := normal.reachability
    reachabilityAfter := after
    simulation }

end IntentDocument

end IntentGraph
