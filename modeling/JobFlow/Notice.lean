import JobFlow.Error
import JobFlow.Event

/-!
What a job records about itself: the diagnostics that a vertex or a job keeps, the protocol
violations among them, and the notices that go to the log. Each is a value of its own, and its words
are chosen in one place.
-/

namespace JobFlow

/-- Why a vertex rejects an event. -/
inductive VertexViolation where
  | unexpected (signal : VertexSignal) (phase : Phase)
  | notASource (source : VertexId)
  | foreignTask (task : TaskId)
  | unscheduledTask (task : TaskId)
  deriving DecidableEq

def VertexViolation.text : VertexViolation → String
  | unexpected signal phase => s!"invalid event {signal.term} in state {phase.text}"
  | notASource source => s!"source notification from {source.text}, which is not a source"
  | foreignTask task => s!"completion for {task.text} which does not belong to this vertex"
  | unscheduledTask task => s!"completion for {task.text} before tasks were scheduled"

/-- Why a job rejects an event. -/
inductive DagViolation where
  | unexpected (signal : DagSignal) (phase : Phase)
  | notTerminal (vertex : VertexId) (phase : Phase)
  | unknownVertex (vertex : VertexId)
  deriving DecidableEq

def DagViolation.text : DagViolation → String
  | unexpected signal phase => s!"invalid event {signal.term} in state {phase.text}"
  | notTerminal vertex phase =>
    s!"completion of {vertex.text} with non-terminal state {phase.text}"
  | unknownVertex vertex => s!"completion of unknown {vertex.text}"

/-- What a vertex remembers of its troubles. -/
inductive VertexDiagnostic where
  | killRequested
  | taskFailed (task : TaskId)
  | tasksKilled (killed total : Nat)
  | violation (reason : VertexViolation)
  deriving DecidableEq

def VertexDiagnostic.text : VertexDiagnostic → String
  | killRequested => "Vertex received kill request"
  | taskFailed task => s!"Task {task.text} failed"
  | tasksKilled killed total => s!"{killed} of {total} tasks were killed"
  | violation reason => s!"Protocol violation: {reason.text}"

/-- What a job remembers of its troubles; vertices appear by name. -/
inductive DagDiagnostic where
  | userKill
  | vertexFailed (vertex : String)
  | vertexKilled (vertex : String)
  | vertexErred (vertex : String)
  | violation (reason : DagViolation)
  deriving DecidableEq

def DagDiagnostic.text : DagDiagnostic → String
  | userKill => "DAG killed by user"
  | vertexFailed vertex => s!"Vertex {vertex} failed"
  | vertexKilled vertex => s!"Vertex {vertex} was killed without a kill request"
  | vertexErred vertex => s!"Vertex {vertex} hit an internal error"
  | violation reason => s!"Protocol violation: {reason.text}"

/-- Warnings and errors of the log. -/
inductive Notice where
  | handlerReplaced (kind : EventKind)
  | backlog (entity : Entity) (depth : Nat)
  | handlerAborted (kind : EventKind) (entity : Entity)
  | laneDied (entity : Entity)
  | outboundRefused (refusal : Refusal)
  | foreignDag (expected got : DagId)
  | unknownVertex (dag : DagId) (vertex : VertexId)
  | vertexViolation (dag : DagId) (vertex : String) (phase : Phase) (reason : VertexViolation)
  | taskFailed (dag : DagId) (vertex : String) (task : TaskId)
  | dagViolation (dag : DagId) (phase : Phase) (reason : DagViolation)
  | vertexErred (dag : DagId) (vertex : String)
  deriving DecidableEq

namespace Notice

/-- A notice is an error when a handler or a lane broke down, and a warning otherwise. -/
def isError : Notice → Bool
  | handlerAborted _ _ | laneDied _ => true
  | _ => false

/-- Whether a notice tells of a protocol violation. -/
def isViolation : Notice → Bool
  | vertexViolation _ _ _ _ | dagViolation _ _ _ => true
  | _ => false

def level (notice : Notice) : String := if notice.isError then "ERROR" else "WARN"

def message : Notice → String
  | handlerReplaced _ => "replacing previously registered event handler"
  | backlog _ _ => "event backlog for entity reached warn threshold"
  | handlerAborted _ _ => "event handler panicked; event dropped"
  | laneDied _ => "dispatcher lane task ended abnormally"
  | outboundRefused _ => "failed to dispatch outbound event"
  | foreignDag _ _ => "DAG event for a different DAG; dropping"
  | unknownVertex _ _ => "event for unknown vertex; dropping"
  | vertexViolation _ _ _ _ => "protocol violation; moving vertex to ERROR"
  | taskFailed _ _ _ => "task failed; failing vertex"
  | dagViolation _ _ _ => "protocol violation; moving DAG to ERROR"
  | vertexErred _ _ => "vertex reported ERROR; moving DAG to ERROR"

/-- The named values that go with the message. -/
def fields : Notice → List (String × String)
  | handlerReplaced kind => [("kind", kind.term)]
  | backlog entity depth => [("entity", entity.term), ("depth", toString depth)]
  | handlerAborted kind entity => [("kind", kind.term), ("entity", entity.term)]
  | laneDied entity => [("entity", entity.term)]
  | outboundRefused refusal => [("error", refusal.error.message)]
  | foreignDag expected got => [("expected", expected.text), ("got", got.text)]
  | unknownVertex dag vertex => [("dag", dag.text), ("vertex", vertex.text)]
  | vertexViolation dag vertex phase reason =>
    [("dag", dag.text), ("vertex", vertex), ("state", phase.text), ("reason", reason.text)]
  | taskFailed dag vertex task => [("dag", dag.text), ("vertex", vertex), ("task", task.text)]
  | dagViolation dag phase reason =>
    [("dag", dag.text), ("state", phase.text), ("reason", reason.text)]
  | vertexErred dag vertex => [("dag", dag.text), ("vertex", vertex)]

end Notice

end JobFlow
