import JobFlow.Plan

/-!
Plans written vertex by vertex and edge by edge. Edges given without an identifier are numbered, so
their identifiers never repeat. Two families of plans are built this way: the diamond of six
vertices and the chain of any length.
-/

namespace JobFlow

namespace Plan

/-- A plan under construction, with the number of edges that were given no identifier. -/
structure Builder where
  plan : Plan
  numbered : Nat := 0

namespace Builder

/-- Starts an empty plan. -/
def named (name : String) : Builder := { plan := { name := name } }

def add (builder : Builder) (vertex : VertexSpec) : Builder :=
  { builder with plan := { builder.plan with vertices := builder.plan.vertices ++ [vertex] } }

def vertex (builder : Builder) (name : String) (taskCount : Nat) : Builder :=
  builder.add { name := name, taskCount := taskCount }

def linkAs (builder : Builder) (id source destination : String) : Builder :=
  let edge := { id := id, source := source, destination := destination }
  { builder with plan := { builder.plan with edges := builder.plan.edges ++ [edge] } }

/-- Adds the next numbered edge: `e1`, `e2` and so on. -/
def link (builder : Builder) (source destination : String) : Builder :=
  let number := builder.numbered + 1
  { builder.linkAs s!"e{number}" source destination with numbered := number }

/-- One call of the builder. -/
inductive Call where
  | vertex (name : String) (taskCount : Nat)
  | add (vertex : VertexSpec)
  | link (source destination : String)
  | linkAs (id source destination : String)

def apply (builder : Builder) : Call → Builder
  | .vertex name taskCount => builder.vertex name taskCount
  | .add vertex => builder.add vertex
  | .link source destination => builder.link source destination
  | .linkAs id source destination => builder.linkAs id source destination

/-- The plan that a list of calls builds. -/
def build (name : String) (calls : List Call) : Plan := (calls.foldl apply (named name)).plan

end Builder

/-- Two roots that meet, fork and meet again. -/
def diamond : Plan :=
  Builder.build "diamond"
    [.vertex "vertex1" 2, .vertex "vertex2" 2, .vertex "vertex3" 2,
      .vertex "vertex4" 2, .vertex "vertex5" 2, .vertex "vertex6" 2,
      .link "vertex1" "vertex3", .link "vertex2" "vertex3", .link "vertex3" "vertex4",
      .link "vertex3" "vertex5", .link "vertex4" "vertex6", .link "vertex5" "vertex6"]

/-- The name of a vertex of a chain. -/
def chainName (index : Nat) : String := s!"v{index}"

/-- A line of vertices, each the source of the next. -/
def chain (length taskCount : Nat) : Plan :=
  Builder.build "chain"
    ((List.range length).map (fun index => .vertex (chainName index) taskCount) ++
      (List.range (length - 1)).map (fun index => .link (chainName index) (chainName (index + 1))))

end Plan

end JobFlow
