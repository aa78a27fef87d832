/-!
Plans: the vertices of a job with their task counts and resource needs, and the named edges between
them. A plan is only data; whether it describes a job is decided when its graph is built.
-/

namespace JobFlow

/-- What each task of a vertex would like to run with. -/
structure Resources where
  memoryMb : Nat := 0
  virtualCores : Nat := 0
  hosts : List String := []
  racks : List String := []
  deriving DecidableEq

/-- How the tasks of the source of an edge are matched with those of its destination. -/
inductive Pairing where
  | oneToOne
  | bipartite
  | broadcast
  deriving DecidableEq

/-- How long the output of the source of an edge lasts. -/
inductive Durability where
  | stable
  | stablePersisted
  | ephemeral
  deriving DecidableEq

structure VertexSpec where
  name : String
  taskCount : Nat
  resource : Resources := {}
  deriving DecidableEq

/-- An edge names its two ends; the destination waits for the source. -/
structure EdgeSpec where
  id : String
  source : String
  destination : String
  pairing : Pairing := .bipartite
  durability : Durability := .stable
  deriving DecidableEq

structure Plan where
  name : String
  vertices : List VertexSpec := []
  edges : List EdgeSpec := []
  deriving DecidableEq

namespace Pairing

def text : Pairing → String
  | oneToOne => "one_to_one"
  | bipartite => "bipartite"
  | broadcast => "broadcast"

def all : List Pairing := [oneToOne, bipartite, broadcast]

end Pairing

namespace Durability

def text : Durability → String
  | stable => "stable"
  | stablePersisted => "stable_persisted"
  | ephemeral => "ephemeral"

def all : List Durability := [stable, stablePersisted, ephemeral]

end Durability

namespace Plan

/-- The first vertex of that name. -/
def vertex? (plan : Plan) (name : String) : Option VertexSpec :=
  plan.vertices.find? (·.name = name)

end Plan

end JobFlow
