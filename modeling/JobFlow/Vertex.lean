import JobFlow.Config
import JobFlow.Graph
import JobFlow.Step

/-!
The life of a vertex. A vertex starts once it has been told to and each of its sources has passed
the gate; it then schedules all of its tasks and collects one report for each. It tells its targets
that it started and that it succeeded, and the job, once, how it ended.
-/

namespace JobFlow

/-- Task counters of a vertex, and their sum over a job. -/
structure Progress where
  total : Nat := 0
  succeeded : Nat := 0
  running : Nat := 0
  failed : Nat := 0
  killed : Nat := 0
  deriving DecidableEq

namespace Progress

def text (progress : Progress) : String :=
  s!"Total: {progress.total} Succeeded: {progress.succeeded} Running: {progress.running} " ++
    s!"Failed: {progress.failed} Killed: {progress.killed}"

def add (left right : Progress) : Progress where
  total := left.total + right.total
  succeeded := left.succeeded + right.succeeded
  running := left.running + right.running
  failed := left.failed + right.failed
  killed := left.killed + right.killed

def sum (all : List Progress) : Progress := all.foldl add {}

/-- Moves one task from running to its outcome. -/
def record (progress : Progress) (outcome : TaskOutcome) : Progress :=
  let progress := { progress with running := progress.running - 1 }
  match outcome with
  | .succeeded => { progress with succeeded := progress.succeeded + 1 }
  | .failed => { progress with failed := progress.failed + 1 }
  | .killed => { progress with killed := progress.killed + 1 }

end Progress

/-- A vertex with its place in the graph and what it has seen so far. The slots hold the first
report of each task, and `ready` the sources that passed the gate. -/
structure Vertex where
  dag : DagId
  id : VertexId
  name : String
  phase : Phase
  depth : Nat
  sources : List VertexId
  targets : List VertexId
  gating : Gating
  toldToStart : Bool
  ready : List VertexId
  launched : Bool
  resource : Resources
  slots : List (Option TaskOutcome)
  progress : Progress
  diagnostics : List VertexDiagnostic
  deriving DecidableEq

/-- What a vertex makes of a task report. -/
inductive TaskReport where
  | recorded (vertex : Vertex)
  | repeated
  | invalid (reason : VertexViolation)

namespace Vertex

/-- A vertex of a graph before anything happened to it. -/
def create (dag : DagId) (id : VertexId) (spec : VertexSpec) (graph : Graph) (gating : Gating) :
    Vertex where
  dag := dag
  id := id
  name := spec.name
  phase := .new
  depth := (graph.depth? id).getD 0
  sources := graph.sources id
  targets := graph.targets id
  gating := gating
  toldToStart := false
  ready := []
  launched := false
  resource := spec.resource
  slots := List.replicate spec.taskCount none
  progress := { total := spec.taskCount }
  diagnostics := []

/-- The tasks of a vertex. -/
def tasks (vertex : Vertex) : List TaskId :=
  (List.range vertex.progress.total).map (⟨vertex.id, ·⟩)

/-- The tasks without a report. -/
def unreported (vertex : Vertex) : List TaskId :=
  ((List.range vertex.slots.length).filter (fun index => vertex.slots[index]? = some none)).map
    (⟨vertex.id, ·⟩)

/-- The request to kill what still runs, if anything does. -/
def killRequest (vertex : Vertex) : List Event :=
  if vertex.launched ∧ vertex.unreported ≠ [] then
    [.tasks vertex.id (.kill vertex.unreported)]
  else []

def note (vertex : Vertex) (diagnostic : VertexDiagnostic) : Vertex :=
  { vertex with diagnostics := vertex.diagnostics ++ [diagnostic] }

/-- Ends the vertex: the job is told, and after a success the targets are too. -/
def conclude (vertex : Vertex) (phase : Phase) : Step Vertex where
  machine := { vertex with phase := phase }
  outbound := .dag vertex.dag (.vertexCompleted vertex.id phase) ::
    if phase = .succeeded then
      vertex.targets.map (fun target => .vertex target (.sourceSucceeded vertex.id))
    else []

/-- Ends the vertex in `error`, killing what still runs. -/
def violate (vertex : Vertex) (reason : VertexViolation) : Step Vertex :=
  let notice := .vertexViolation vertex.dag vertex.name vertex.phase reason
  (Step.mk (vertex.note (.violation reason)) vertex.killRequest [notice]).andThen
    (conclude · .error)

/-- Starts the tasks and tells the targets. A vertex without tasks has succeeded by that. -/
def launch (vertex : Vertex) : Step Vertex :=
  let running := { vertex with
    phase := .running
    launched := true
    progress := { vertex.progress with running := vertex.progress.total } }
  let requests := if vertex.progress.total = 0 then []
    else [.tasks vertex.id (.schedule vertex.tasks vertex.resource)]
  let notifications := vertex.targets.map (fun target => .vertex target (.sourceStarted vertex.id))
  (Step.mk running (requests ++ notifications) []).andThen (fun vertex =>
    if vertex.progress.total = 0 then vertex.conclude .succeeded else .rest vertex)

/-- Launches an initialised vertex that was told to start and whose sources are all ready. -/
def startIfReady (vertex : Vertex) : Step Vertex :=
  if vertex.phase = .inited ∧ vertex.toldToStart ∧ ∀ source ∈ vertex.sources, source ∈ vertex.ready
  then vertex.launch
  else .rest vertex

/-- Notes that a source passed a gate, which counts if it is the gate of this vertex. -/
def sourcePassed (vertex : Vertex) (source : VertexId) (gate : Gating) : Step Vertex :=
  if source ∈ vertex.sources then
    startIfReady (if gate = vertex.gating then
      { vertex with ready := vertex.ready.insert source } else vertex)
  else vertex.violate (.notASource source)

/-- Files the first report of a task of this vertex. -/
def report (vertex : Vertex) (task : TaskId) (outcome : TaskOutcome) : TaskReport :=
  if task.vertex ≠ vertex.id ∨ vertex.slots.length ≤ task.index then .invalid (.foreignTask task)
  else if ¬ vertex.launched then .invalid (.unscheduledTask task)
  else if vertex.slots[task.index]? = some none then
    .recorded { vertex with
      slots := vertex.slots.set task.index (some outcome)
      progress := vertex.progress.record outcome }
  else .repeated

/-- Ends the vertex as killed when the last report is in and some task was killed. -/
def concludeKilled (vertex : Vertex) : Step Vertex :=
  if vertex.progress.running = 0 then
    (vertex.note (.tasksKilled vertex.progress.killed vertex.progress.total)).conclude .killed
  else .rest vertex

/-- What a recorded report means while the vertex runs: the first failure ends it. -/
def afterReport (vertex : Vertex) (task : TaskId) : TaskOutcome → Step Vertex
  | .succeeded =>
    if vertex.progress.succeeded = vertex.progress.total then vertex.conclude .succeeded
    else vertex.concludeKilled
  | .failed =>
    let notice := .taskFailed vertex.dag vertex.name task
    (Step.mk (vertex.note (.taskFailed task)) vertex.killRequest [notice]).andThen
      (conclude · .failed)
  | .killed => vertex.concludeKilled

def reportRunning (vertex : Vertex) (task : TaskId) (outcome : TaskOutcome) : Step Vertex :=
  match vertex.report task outcome with
  | .recorded vertex => vertex.afterReport task outcome
  | .repeated => .rest vertex
  | .invalid reason => vertex.violate reason

/-- While the vertex is being killed, the last report ends it, whatever the outcome. -/
def reportDying (vertex : Vertex) (task : TaskId) (outcome : TaskOutcome) : Step Vertex :=
  match vertex.report task outcome with
  | .recorded vertex =>
    if vertex.progress.running = 0 then vertex.conclude .killed else .rest vertex
  | .repeated => .rest vertex
  | .invalid reason => vertex.violate reason

/-- After the end, a first report is still counted and all else is ignored. -/
def reportLate (vertex : Vertex) (task : TaskId) (outcome : TaskOutcome) : Step Vertex :=
  match vertex.report task outcome with
  | .recorded vertex => .rest vertex
  | .repeated | .invalid _ => .rest vertex

/-- Kills the vertex, which is over at once if nothing runs. -/
def startDying (vertex : Vertex) : Step Vertex :=
  let dying := { vertex.note .killRequested with phase := .killWait }
  (Step.mk dying vertex.killRequest []).andThen (fun vertex =>
    if vertex.progress.running = 0 then vertex.conclude .killed else .rest vertex)

def handleInit (vertex : Vertex) : Step Vertex :=
  if vertex.phase = .new then .rest { vertex with phase := .inited }
  else if vertex.phase.isTerminal then .rest vertex
  else vertex.violate (.unexpected .init vertex.phase)

def handleStart (vertex : Vertex) : Step Vertex :=
  if vertex.phase = .inited then startIfReady { vertex with toldToStart := true }
  else if vertex.phase.isTerminal then .rest vertex
  else vertex.violate (.unexpected .start vertex.phase)

def handleKill (vertex : Vertex) : Step Vertex :=
  match vertex.phase with
  | .new | .inited | .running => vertex.startDying
  | .killWait | .succeeded | .failed | .killed | .error => .rest vertex

def handleSource (vertex : Vertex) (source : VertexId) (gate : Gating) : Step Vertex :=
  if vertex.phase.isTerminal then .rest vertex else vertex.sourcePassed source gate

def handleTask (vertex : Vertex) (task : TaskId) (outcome : TaskOutcome) : Step Vertex :=
  match vertex.phase with
  | .new | .inited => vertex.violate (.unexpected (.taskCompleted task outcome) vertex.phase)
  | .running => vertex.reportRunning task outcome
  | .killWait => vertex.reportDying task outcome
  | .succeeded | .failed | .killed => vertex.reportLate task outcome
  | .error => .rest vertex

/-- One step of a vertex. -/
def handle (vertex : Vertex) : VertexSignal → Step Vertex
  | .init => vertex.handleInit
  | .start => vertex.handleStart
  | .kill => vertex.handleKill
  | .sourceStarted source => vertex.handleSource source .sourceStarted
  | .sourceSucceeded source => vertex.handleSource source .sourceSucceeded
  | .taskCompleted task outcome => vertex.handleTask task outcome

end Vertex

end JobFlow
