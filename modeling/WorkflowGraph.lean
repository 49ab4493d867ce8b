import WorkflowGraph.Bus.Exchange
import WorkflowGraph.LogSettings
import WorkflowGraph.Main
import WorkflowGraph.Proofs.Counting
import WorkflowGraph.Proofs.Lifecycle
import WorkflowGraph.Proofs.Ownership
import WorkflowGraph.Proofs.Resolution
import WorkflowGraph.Proofs.Coherence
import WorkflowGraph.Proofs.Decoding
import WorkflowGraph.Proofs.Meaning
import WorkflowGraph.Proofs.Bindings
import WorkflowGraph.Proofs.RunnerChronicle
import WorkflowGraph.Proofs.Entries
import WorkflowGraph.Proofs.Requests
import WorkflowGraph.Proofs.Restart
import WorkflowGraph.Proofs.Trail
import WorkflowGraph.Proofs.BindingLeases
import WorkflowGraph.Proofs.Sharing
import WorkflowGraph.Proofs.Reentrance
import WorkflowGraph.Proofs.Rereading
import WorkflowGraph.Proofs.RoundTrip
import WorkflowGraph.Proofs.Rounds
import WorkflowGraph.Proofs.EdgeChoice
import WorkflowGraph.Proofs.Adjustment
import WorkflowGraph.Proofs.Budget
import WorkflowGraph.Proofs.Addresses
import WorkflowGraph.Proofs.Teardown
import WorkflowGraph.Proofs.DoorRuns
import WorkflowGraph.Proofs.Modes
import WorkflowGraph.Proofs.Truncation
import WorkflowGraph.Proofs.Accounts
import WorkflowGraph.Proofs.Starting
import WorkflowGraph.Proofs.Inspection
import WorkflowGraph.Proofs.Instantiation
import WorkflowGraph.Proofs.Deliveries
import WorkflowGraph.Proofs.Seeding
import WorkflowGraph.Proofs.FailedStart
import WorkflowGraph.Proofs.Visits
import WorkflowGraph.Proofs.Lookup
import WorkflowGraph.Proofs.Footprints
import WorkflowGraph.Proofs.Comparing
