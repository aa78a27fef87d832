/-!
Identifiers of a job, of its vertices and of their tasks, each with two texts: the short name used
in messages and the term that shows how the identifier is built.
-/

namespace JobFlow

/-- The identifier of a job, whose vertices form a directed acyclic graph. -/
structure DagId where
  number : Nat
  deriving DecidableEq

/-- A vertex of a job, by its position in the plan. -/
structure VertexId where
  index : Nat
  deriving DecidableEq

/-- A task of a vertex, by its position among the tasks of that vertex. -/
structure TaskId where
  vertex : VertexId
  index : Nat
  deriving DecidableEq

namespace DagId

def text (dag : DagId) : String := s!"dag_{dag.number}"

def term (dag : DagId) : String := s!"DagId({dag.number})"

end DagId

namespace VertexId

def text (vertex : VertexId) : String := s!"vertex_{vertex.index}"

def term (vertex : VertexId) : String := s!"VertexId({vertex.index})"

end VertexId

namespace TaskId

def text (task : TaskId) : String := s!"task_{task.vertex.index}_{task.index}"

def term (task : TaskId) : String :=
  s!"TaskId \x7b vertex: {task.vertex.term}, index: {task.index} \x7d"

/-- Tasks are ordered by vertex, and within a vertex by position. -/
def le (left right : TaskId) : Bool :=
  left.vertex.index < right.vertex.index ||
    (left.vertex.index == right.vertex.index && left.index ≤ right.index)

end TaskId

end JobFlow
