import JobFlow.Plan.Builder
import JobFlow.Dispatcher.Script
import JobFlow.Coordinator
import JobFlow.Logging
import JobFlow.Config.File
import JobFlow.Proofs.Run
import JobFlow.Proofs.Vertex.Bookkeeping
import JobFlow.Proofs.Vertex.Steps
import JobFlow.Proofs.Dag.Bookkeeping
import JobFlow.Proofs.Dag.Steps
import JobFlow.Proofs.Dag.Accounting
import JobFlow.Proofs.Graph.Search
import JobFlow.Proofs.Graph.Soundness
import JobFlow.Proofs.Dag.Responses
import JobFlow.Proofs.Vertex.Responses
import JobFlow.Proofs.Situation
import JobFlow.Proofs.Completions
import JobFlow.Proofs.Promises
import JobFlow.Proofs.DeadlockFreedom
import JobFlow.Proofs.Signals
import JobFlow.Proofs.Conduct
import JobFlow.Proofs.Rehearsal
import JobFlow.Proofs.Notification
import JobFlow.Proofs.FullRun
import JobFlow.Proofs.Outcome
import JobFlow.Proofs.Lanes
import JobFlow.Proofs.Operation
import JobFlow.Proofs.Teardown
import JobFlow.Proofs.Verdict
import JobFlow.Proofs.Gates
import JobFlow.Proofs.Potential
import JobFlow.Proofs.Graph.Edges
import JobFlow.Proofs.Draining
import JobFlow.Proofs.History
import JobFlow.Proofs.Dag.Coherence
import JobFlow.Proofs.Dag.Correspondence
import JobFlow.Proofs.Vertex.Correspondence
import JobFlow.Proofs.Dag.FirstCause
import JobFlow.Proofs.Vertex.TaskReports
import JobFlow.Proofs.Vertex.FirstReports
import JobFlow.Proofs.Graph.Acceptance
import JobFlow.Proofs.Dispatcher.Emptying
import JobFlow.Proofs.Dispatcher.Stopping
import JobFlow.Proofs.Dag.Repetition
import JobFlow.Proofs.Vertex.Repetition
import JobFlow.Proofs.Publication
import JobFlow.Proofs.Foreign
import JobFlow.Proofs.Vertex.Exactness
import JobFlow.Proofs.Vertex.LateReports
import JobFlow.Proofs.Vertex.Kills
import JobFlow.Proofs.Vertex.Opening
import JobFlow.Proofs.Dag.Counting
import JobFlow.Proofs.Graph.Paths
import JobFlow.Proofs.Graph.Image
import JobFlow.Proofs.Graph.Depth
import JobFlow.Proofs.Graph.Cycles
import JobFlow.Proofs.Graph.Rejection
import JobFlow.Proofs.Plan.Building
import JobFlow.Proofs.Graph.Chain
import JobFlow.Proofs.Dispatcher.Backlog
import JobFlow.Proofs.Text.Words
