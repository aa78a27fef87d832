import JobFlow.Dag
import JobFlow.Dispatcher
import JobFlow.Vertex

/-!
One attempt to carry out a job: the job, its vertices, the phase that watchers see, the finish
notifications that the owner received, and the task layer, if there is one. Events reach them
through four handlers, each of which steps one machine and then dispatches what the step sends.
-/

namespace JobFlow

/-- A task layer for rehearsals. It keeps a record of every request, and either holds the tasks that it
is given or completes them at once, those that are set to fail by a failure. A kill is acknowledged
unless the layer is told not to. -/
structure TaskLayer where
  completes : Bool
  acknowledges : Bool := true
  failing : List TaskId := []
  requests : List (VertexId × TaskRequest) := []
  scheduled : List TaskId := []
  killed : List TaskId := []
  deriving DecidableEq

namespace TaskLayer

def record (layer : TaskLayer) (vertex : VertexId) (request : TaskRequest) : TaskLayer :=
  let layer := { layer with requests := layer.requests ++ [(vertex, request)] }
  match request with
  | .schedule tasks _ => { layer with scheduled := layer.scheduled ++ tasks }
  | .kill tasks => { layer with killed := layer.killed ++ tasks }

def outcome (layer : TaskLayer) (task : TaskId) : TaskOutcome :=
  if task ∈ layer.failing then .failed else .succeeded

/-- The reports with which a request is answered at once. -/
def reports (layer : TaskLayer) : TaskRequest → List Event
  | .schedule tasks _ =>
    if layer.completes then tasks.map (fun task => .taskCompleted task (layer.outcome task)) else []
  | .kill tasks => if layer.acknowledges then tasks.map (.taskCompleted · .killed) else []

end TaskLayer

structure Attempt where
  id : DagId
  dag : Dag
  vertices : List Vertex
  published : Phase
  finished : List (DagId × Phase)
  layer : Option TaskLayer
  deriving DecidableEq

namespace Attempt

def create (id : DagId) (plan : Plan) (graph : Graph) (gating : Gating) : Attempt where
  id := id
  dag := .create id plan.name graph
  vertices := (graph.vertexIds.zip plan.vertices).map (fun (vertex, spec) =>
    .create id vertex spec graph gating)
  published := .new
  finished := []
  layer := none

def vertex? (attempt : Attempt) (vertex : VertexId) : Option Vertex :=
  attempt.vertices[vertex.index]?

def progress (attempt : Attempt) : Progress := .sum (attempt.vertices.map (·.progress))

/-- Steps the job; a change of phase is published. -/
def onDag : Handler Attempt
  | attempt, .dag id signal =>
    if id ≠ attempt.id then .warn (.foreignDag attempt.id id) (.done attempt)
    else
      let step := attempt.dag.handle signal
      let published :=
        if step.machine.phase = attempt.dag.phase then attempt.published else step.machine.phase
      .warnAll step.notices (.dispatchAll step.outbound
        (.done { attempt with dag := step.machine, published := published }))
  | attempt, _ => .done attempt

def onVertex : Handler Attempt
  | attempt, .vertex id signal =>
    match attempt.vertex? id with
    | none => .warn (.unknownVertex attempt.id id) (.done attempt)
    | some vertex =>
      let step := vertex.handle signal
      .warnAll step.notices (.dispatchAll step.outbound
        (.done { attempt with vertices := attempt.vertices.set id.index step.machine }))
  | attempt, _ => .done attempt

def onFinished : Handler Attempt
  | attempt, .finished dag phase =>
    .done { attempt with finished := attempt.finished ++ [(dag, phase)] }
  | attempt, _ => .done attempt

/-- Dispatches reports in order and breaks down at the first refusal. -/
def insist (attempt : Attempt) : List Event → Action Attempt
  | [] => .done attempt
  | event :: rest => .dispatch event fun
    | .ok () => attempt.insist rest
    | .error _ => .abort attempt

/-- Passes a request to the task layer, which counts on its reports being accepted. -/
def onTasks : Handler Attempt
  | attempt, .tasks vertex request =>
    match attempt.layer with
    | none => .done attempt
    | some layer =>
      insist { attempt with layer := some (layer.record vertex request) } (layer.reports request)
  | attempt, _ => .done attempt

end Attempt

end JobFlow
