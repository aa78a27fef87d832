import JobFlow.Id
import JobFlow.Phase
import JobFlow.Plan

/-!
The events that a job, its vertices, its task layer and its owner send each other. Every event
belongs to one of four kinds, which decides who handles it, and is addressed to one entity, whose
events are handled in the order in which they were sent.
-/

namespace JobFlow

/-- What a job can be told. -/
inductive DagSignal where
  | init
  | start
  | kill
  | vertexCompleted (vertex : VertexId) (phase : Phase)
  deriving DecidableEq

/-- What a vertex can be told. -/
inductive VertexSignal where
  | init
  | start
  | kill
  | sourceStarted (source : VertexId)
  | sourceSucceeded (source : VertexId)
  | taskCompleted (task : TaskId) (outcome : TaskOutcome)
  deriving DecidableEq

/-- What the task layer is asked to do for a vertex. -/
inductive TaskRequest where
  | schedule (tasks : List TaskId) (resource : Resources)
  | kill (tasks : List TaskId)
  deriving DecidableEq

inductive Event where
  | dag (dag : DagId) (signal : DagSignal)
  | vertex (vertex : VertexId) (signal : VertexSignal)
  | tasks (vertex : VertexId) (request : TaskRequest)
  | finished (dag : DagId) (phase : Phase)
  deriving DecidableEq

/-- The kind of an event, by which handlers are registered. -/
inductive EventKind where
  | dag
  | vertex
  | tasks
  | finished
  deriving DecidableEq

/-- The receiver of an event: a job, a vertex, the tasks of a vertex, or the owner of a job. -/
inductive Entity where
  | dag (dag : DagId)
  | vertex (vertex : VertexId)
  | tasks (vertex : VertexId)
  | owner (dag : DagId)
  deriving DecidableEq

namespace DagSignal

def term : DagSignal → String
  | init => "Init"
  | start => "Start"
  | kill => "Kill"
  | vertexCompleted vertex phase =>
    s!"VertexCompleted \x7b vertex: {vertex.term}, state: {phase.term} \x7d"

end DagSignal

namespace VertexSignal

def term : VertexSignal → String
  | init => "Init"
  | start => "Start"
  | kill => "Kill"
  | sourceStarted source => s!"SourceStarted \x7b source: {source.term} \x7d"
  | sourceSucceeded source => s!"SourceSucceeded \x7b source: {source.term} \x7d"
  | taskCompleted task outcome =>
    s!"TaskCompleted \x7b task: {task.term}, state: {outcome.term} \x7d"

end VertexSignal

namespace TaskRequest

def tasks : TaskRequest → List TaskId
  | schedule tasks _ | kill tasks => tasks

end TaskRequest

namespace EventKind

def all : List EventKind := [dag, vertex, tasks, finished]

def term : EventKind → String
  | dag => "Dag"
  | vertex => "Vertex"
  | tasks => "Task"
  | finished => "DagFinished"

end EventKind

namespace Entity

/-- The short name of the job or vertex that an entity is or belongs to. -/
def idText : Entity → String
  | .dag id | .owner id => id.text
  | .vertex id | .tasks id => id.text

def term : Entity → String
  | .dag id => s!"Dag({id.term})"
  | .vertex id => s!"Vertex({id.term})"
  | .tasks id => s!"Tasks({id.term})"
  | .owner id => s!"Owner({id.term})"

/-- The place of a kind of entity and the number within it, by which records are listed. -/
def rank : Entity → Nat × Nat
  | .dag id => (0, id.number)
  | .vertex id => (1, id.index)
  | .tasks id => (2, id.index)
  | .owner id => (3, id.number)

def le (left right : Entity) : Bool :=
  left.rank.1 < right.rank.1 || (left.rank.1 == right.rank.1 && left.rank.2 ≤ right.rank.2)

end Entity

namespace Event

def kind : Event → EventKind
  | dag _ _ => .dag
  | vertex _ _ => .vertex
  | tasks _ _ => .tasks
  | finished _ _ => .finished

def entity : Event → Entity
  | .dag id _ => .dag id
  | .vertex id _ => .vertex id
  | .tasks id _ => .tasks id
  | .finished id _ => .owner id

/-- The report that a task ended, addressed to the vertex of the task. -/
def taskCompleted (task : TaskId) (outcome : TaskOutcome) : Event :=
  .vertex task.vertex (.taskCompleted task outcome)

/-- The tasks that an event speaks of. -/
def taskIds : Event → List TaskId
  | .tasks _ request => request.tasks
  | .vertex _ (.taskCompleted task _) => [task]
  | _ => []

end Event

end JobFlow
