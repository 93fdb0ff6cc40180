import IntentGraph.CommandLine.FileStore
import IntentGraph.Key.KeySet
import IntentGraph.Main
import IntentGraph.Workspace
import IntentGraph.Proofs.Compilation
import IntentGraph.Proofs.Execution.DryRun
import IntentGraph.Proofs.Execution.NodeOrder
import IntentGraph.Proofs.Recompilation
import IntentGraph.Proofs.Repair.Loop
import IntentGraph.Proofs.Normalization.Idempotence
import IntentGraph.Proofs.Repair.Frame
import IntentGraph.Proofs.Normalization.Flow
import IntentGraph.Proofs.Wire.Reading
import IntentGraph.Proofs.Wire.Record
import IntentGraph.Proofs.Document.Choices
import IntentGraph.Proofs.Document.RoundTrip
import IntentGraph.Proofs.Execution.GraphWalk
import IntentGraph.Proofs.Reachability.ClosedForm
import IntentGraph.Proofs.Compilation.NodeIds
import IntentGraph.Proofs.Execution.RunReport
import IntentGraph.Proofs.Execution.Budget
import IntentGraph.Proofs.Repair.Targets
import IntentGraph.Proofs.Ownership.Page
import IntentGraph.Proofs.Validation.Authority
import IntentGraph.Proofs.Repair.Liveness
import IntentGraph.Proofs.Normalization.FilterState
import IntentGraph.Proofs.Validation.Options
import IntentGraph.Proofs.Repair.Hydration
import IntentGraph.Proofs.Repair.Account
import IntentGraph.Proofs.Execution.Routing
import IntentGraph.Proofs.Shadowing
import IntentGraph.Proofs.Normalization.Trail
import IntentGraph.Proofs.Repair.FreshId
import IntentGraph.Proofs.Key.AliasGrammar
