import JobFlow.Attempt
import JobFlow.Config
import JobFlow.Dispatcher

/-!
The coordinator through which an owner carries out a job. Commands and task reports are dispatched
as events and take effect when they are delivered; `settle` delivers everything that waits and all
that comes of it, within a number of deliveries that the plan and the waiting events bound.
-/

namespace JobFlow

structure Coordinator where
  graph : Graph
  dispatcher : Dispatcher Attempt

namespace Coordinator

/-- Sets up the job of a plan. The only reason to fail is a defect of the plan. -/
def submit (id : DagId) (plan : Plan) (config : Config) : Except PlanDefect Coordinator := do
  let graph ← Graph.ofPlan plan
  let attempt := Attempt.create id plan graph config.settings.gating
  return {
    graph := graph
    dispatcher := (((Dispatcher.create config.settings.backlogThreshold attempt).register
      .dag Attempt.onDag).register .vertex Attempt.onVertex).register .finished Attempt.onFinished }

def attempt (coordinator : Coordinator) : Attempt := coordinator.dispatcher.state

/-- Makes a task layer responsible for the requests of the vertices. -/
def install (coordinator : Coordinator) (layer : TaskLayer) : Coordinator :=
  let dispatcher := coordinator.dispatcher.register .tasks Attempt.onTasks
  { coordinator with
    dispatcher := { dispatcher with state := { dispatcher.state with layer := some layer } } }

def dispatch (coordinator : Coordinator) (event : Event) : Coordinator × Except Refusal Unit :=
  let (dispatcher, answer) := coordinator.dispatcher.dispatch event
  ({ coordinator with dispatcher := dispatcher }, answer)

/-- Dispatches events in order; the last answer counts. -/
def dispatchAll (coordinator : Coordinator) (events : List Event) :
    Coordinator × Except Refusal Unit :=
  events.foldl (fun (coordinator, _) event => coordinator.dispatch event) (coordinator, .ok ())

def command (coordinator : Coordinator) (signal : DagSignal) : Coordinator × Except Refusal Unit :=
  coordinator.dispatch (.dag coordinator.attempt.id signal)

def init (coordinator : Coordinator) : Coordinator × Except Refusal Unit :=
  coordinator.command .init

def start (coordinator : Coordinator) : Coordinator × Except Refusal Unit :=
  coordinator.command .start

def kill (coordinator : Coordinator) : Coordinator × Except Refusal Unit :=
  coordinator.command .kill

def taskCompleted (coordinator : Coordinator) (task : TaskId) (outcome : TaskOutcome) :
    Coordinator × Except Refusal Unit :=
  coordinator.dispatch (.taskCompleted task outcome)

/-- Acknowledges, on behalf of the task layer, every kill that it was asked for. -/
def acknowledgeKills (coordinator : Coordinator) : Coordinator × Except Refusal Unit :=
  let killed := (coordinator.attempt.layer.elim [] (·.killed)).mergeSort TaskId.le
  coordinator.dispatchAll (killed.map (.taskCompleted · .killed))

/-- Takes the first event of an entity and has it handled. -/
def deliver (coordinator : Coordinator) (entity : Entity) : Coordinator :=
  { coordinator with dispatcher := coordinator.dispatcher.deliver entity }

/-- The deliveries that waiting events ask for: one each, and one for each task of a request. -/
def waitingCost (event : Event) : Nat :=
  match event with
  | .tasks _ request => 1 + request.tasks.length
  | _ => 1

/-- The deliveries that a vertex can still bring about: a request to schedule, two to kill, a
completion, two notifications for each target, and three reports for each task. -/
def vertexCost (vertex : Vertex) : Nat :=
  4 + 2 * vertex.targets.length + 3 * max vertex.progress.total vertex.slots.length

/-- The deliveries that a job can still bring about: three signals for each vertex, and a
notification of the owner. -/
def dagCost (dag : Dag) : Nat := 3 * dag.vertexCount + 1

/-- A bound on the deliveries until nothing waits. -/
def deliveryBound (coordinator : Coordinator) : Nat :=
  let waiting := coordinator.dispatcher.lanes.flatMap (·.2.queue)
  (waiting.map waitingCost).foldr (· + ·) 0 + dagCost coordinator.attempt.dag +
    (coordinator.attempt.vertices.map vertexCost).foldr (· + ·) 0

/-- Delivers until nothing waits. -/
def settle (coordinator : Coordinator) : Coordinator :=
  { coordinator with
    dispatcher := coordinator.dispatcher.drain coordinator.deliveryBound }

/-- Waits until the job is over and answers how it ended, or nothing if it waits for reports. -/
def wait (coordinator : Coordinator) : Coordinator × Option Phase :=
  let ended := fun (coordinator : Coordinator) =>
    if coordinator.attempt.published.isTerminal then some coordinator.attempt.published else none
  match ended coordinator with
  | some phase => (coordinator, some phase)
  | none => (coordinator.settle, ended coordinator.settle)

/-- Initialises and starts the job, and waits for it. -/
def run (coordinator : Coordinator) : Coordinator × Except Refusal (Option Phase) :=
  match coordinator.init with
  | (coordinator, .error refusal) => (coordinator, .error refusal)
  | (coordinator, .ok ()) =>
    match coordinator.start with
    | (coordinator, .error refusal) => (coordinator, .error refusal)
    | (coordinator, .ok ()) =>
      let (coordinator, phase) := coordinator.wait
      (coordinator, .ok phase)

/-- Handles what was accepted and accepts nothing more. -/
def shutdown (coordinator : Coordinator) : Coordinator :=
  { coordinator with dispatcher := coordinator.dispatcher.stop }

def vertexId? (coordinator : Coordinator) (name : String) : Option VertexId :=
  coordinator.graph.vertexId? name

def vertex? (coordinator : Coordinator) (vertex : VertexId) : Option Vertex :=
  coordinator.attempt.vertex? vertex

def term (coordinator : Coordinator) : String :=
  let id := coordinator.attempt.id.term
  let vertices := coordinator.attempt.vertices.length
  let dispatcher := coordinator.dispatcher.term
  s!"DagCoordinator \x7b id: {id}, vertices: {vertices}, dispatcher: {dispatcher}, .. \x7d"

end Coordinator

end JobFlow
