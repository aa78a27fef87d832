import JobFlow.Plan
import JobFlow.Error
import JobFlow.Graph.Order

/-!
The frozen graph of a plan: the adjacency lists, depths and topological order of its vertices, which
are numbered as the plan lists them. Building the graph is where a plan is judged; the first defect
found is the answer.
-/

namespace JobFlow

/-- An edge between two vertices of a plan, by number. -/
structure Arc where
  source : VertexId
  target : VertexId
  deriving DecidableEq

/-- A vertex with its direct neighbours, each once, and its distance from the roots. -/
structure Node where
  name : String
  sources : List VertexId
  targets : List VertexId
  depth : Nat
  deriving DecidableEq

structure Graph where
  nodes : List Node
  edges : List EdgeSpec
  order : List VertexId
  deriving DecidableEq

namespace Plan

/-- The number of the vertex of that name. -/
def vertexId? (plan : Plan) (name : String) : Option VertexId :=
  (plan.vertices.findIdx? (·.name = name)).map (⟨·⟩)

/-- The numbers of the vertices of a plan. -/
def vertexIds (plan : Plan) : List VertexId := (List.range plan.vertices.length).map (⟨·⟩)

/-- The first name that occurred before. -/
def repeatedName? (seen : List String) : List VertexSpec → Option String
  | [] => none
  | vertex :: rest =>
    if vertex.name ∈ seen then some vertex.name else repeatedName? (vertex.name :: seen) rest

/-- Resolves one edge, after the identifiers of the edges before it. The source is looked up before
the destination, and both before they are compared. -/
def resolveEdge (plan : Plan) (seen : List String) (edge : EdgeSpec) : Except PlanDefect Arc :=
  if edge.id ∈ seen then .error (.duplicateEdge edge.id)
  else match plan.vertexId? edge.source, plan.vertexId? edge.destination with
    | none, _ => .error (.unknownVertex edge.id edge.source)
    | some _, none => .error (.unknownVertex edge.id edge.destination)
    | some source, some target =>
      if source = target then .error (.selfLoop edge.id edge.source) else .ok ⟨source, target⟩

/-- Resolves the edges in order; the first defect is the answer. -/
def resolveEdges (plan : Plan) (seen : List String) :
    List EdgeSpec → Except PlanDefect (List Arc)
  | [] => .ok []
  | edge :: rest => do
    let arc ← plan.resolveEdge seen edge
    let arcs ← plan.resolveEdges (edge.id :: seen) rest
    return arc :: arcs

/-- The arcs of a plan whose names and edges are sound. -/
def arcs (plan : Plan) : Except PlanDefect (List Arc) :=
  if plan.vertices.isEmpty then .error (.noVertices plan.name)
  else match repeatedName? [] plan.vertices with
    | some name => .error (.duplicateVertex name)
    | none => plan.resolveEdges [] plan.edges

end Plan

namespace Arc

/-- The targets of a vertex, one for each arc. -/
def targetsOf (arcs : List Arc) (vertex : VertexId) : List VertexId :=
  (arcs.filter (·.source = vertex)).map (·.target)

/-- The sources of a vertex, one for each arc. -/
def sourcesOf (arcs : List Arc) (vertex : VertexId) : List VertexId :=
  (arcs.filter (·.target = vertex)).map (·.source)

/-- The topological order of the vertices; the search takes the arcs from the last to the first. -/
def order (arcs : List Arc) (vertices : List VertexId) : Except VertexId (List VertexId) :=
  Search.topologicalOrder (fun vertex => (targetsOf arcs vertex).reverse)
    (fun vertex => (sourcesOf arcs vertex).reverse) vertices

end Arc

namespace Graph

/-- One more than the depth of the deepest source, or zero for a root. -/
def depthBelow (depths : List Nat) (sources : List VertexId) : Nat :=
  (sources.map (fun source => depths.getD source.index 0 + 1)).foldl max 0

/-- The depths of all vertices, settled in topological order. -/
def depths (sources : VertexId → List VertexId) (count : Nat) (order : List VertexId) : List Nat :=
  order.foldl (fun depths vertex => depths.set vertex.index (depthBelow depths (sources vertex)))
    (List.replicate count 0)

/-- The graph over given arcs and order; neighbours are listed by their first arc. -/
def assemble (plan : Plan) (arcs : List Arc) (order : List VertexId) : Graph :=
  let sources := fun vertex => (Arc.sourcesOf arcs vertex).eraseDups
  let targets := fun vertex => (Arc.targetsOf arcs vertex).eraseDups
  let depths := depths sources plan.vertices.length order
  { nodes := (plan.vertices.zip plan.vertexIds).map fun (vertex, id) =>
      { name := vertex.name, sources := sources id, targets := targets id
        depth := depths.getD id.index 0 }
    edges := plan.edges
    order := order }

/-- The graph of a plan, or its first defect. -/
def ofPlan (plan : Plan) : Except PlanDefect Graph := do
  let arcs ← plan.arcs
  match Arc.order arcs plan.vertexIds with
  | .error vertex => throw (.cycle ((plan.vertices[vertex.index]?).elim "" (·.name)))
  | .ok order => return assemble plan arcs order

def size (graph : Graph) : Nat := graph.nodes.length

def vertexIds (graph : Graph) : List VertexId := (List.range graph.size).map (⟨·⟩)

def node? (graph : Graph) (vertex : VertexId) : Option Node := graph.nodes[vertex.index]?

def vertexId? (graph : Graph) (name : String) : Option VertexId :=
  (graph.nodes.findIdx? (·.name = name)).map (⟨·⟩)

def name? (graph : Graph) (vertex : VertexId) : Option String := (graph.node? vertex).map (·.name)

def sources (graph : Graph) (vertex : VertexId) : List VertexId :=
  (graph.node? vertex).elim [] (·.sources)

def targets (graph : Graph) (vertex : VertexId) : List VertexId :=
  (graph.node? vertex).elim [] (·.targets)

def depth? (graph : Graph) (vertex : VertexId) : Option Nat := (graph.node? vertex).map (·.depth)

/-- The vertices that wait for no other. -/
def roots (graph : Graph) : List VertexId :=
  graph.vertexIds.filter (fun vertex => (graph.sources vertex).isEmpty)

end Graph

end JobFlow
