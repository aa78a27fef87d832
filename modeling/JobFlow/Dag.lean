import JobFlow.Graph
import JobFlow.Step

/-!
The life of a job. A job tells its vertices to initialise and to start, counts how each of them
ended, and winds up at the first kill, failure or error: the first cause is kept, every vertex that
is not over is told to die once, and the owner hears once that the job is finished.
-/

namespace JobFlow

/-! ### How a job winds up -/

/-- What a job knows of a vertex: the phase in which it ended, and whether it was told to die. -/
structure Tally where
  completed : Option Phase := none
  killRequested : Bool := false
  deriving DecidableEq

namespace Tally

def isCounted (tally : Tally) : Bool := tally.completed.isSome

def allCounted (tallies : List Tally) : Bool := tallies.all isCounted

/-- The vertices that are not over and were not told to die, in order. -/
def killable (tallies : List Tally) : List VertexId :=
  ((List.range tallies.length).filter (fun index =>
    (tallies[index]?).any (fun tally => !tally.isCounted && !tally.killRequested))).map (⟨·⟩)

end Tally

/-- What follows from a change of the tallies: whom to kill, and how the job ends if it does. -/
structure Consequence where
  toKill : List VertexId
  allCounted : Bool
  finalPhase : Option Phase
  deriving DecidableEq

/-- A cause kills only in the step that sets it. -/
def Consequence.of (tallies : List Tally) (cause : Cause) (fresh : Bool) : Consequence where
  toKill := if fresh && cause.isSet then Tally.killable tallies else []
  allCounted := Tally.allCounted tallies
  finalPhase := if Tally.allCounted tallies then some cause.finalPhase else none

/-! ### The job -/

/-- A job with its tallies, one for each vertex, and the counts that it reports. -/
structure Dag where
  id : DagId
  name : String
  phase : Phase
  cause : Cause
  vertexNames : List String
  tallies : List Tally
  succeeded : Nat
  failed : Nat
  killed : Nat
  ownerTold : Bool
  diagnostics : List DagDiagnostic
  deriving DecidableEq

namespace Dag

/-- A job over a graph before anything happened to it. -/
def create (id : DagId) (name : String) (graph : Graph) : Dag where
  id := id
  name := name
  phase := .new
  cause := .none
  vertexNames := graph.nodes.map (·.name)
  tallies := List.replicate graph.size {}
  succeeded := 0
  failed := 0
  killed := 0
  ownerTold := false
  diagnostics := []

def vertexCount (dag : Dag) : Nat := dag.tallies.length

/-- The number of vertices whose end the job has counted. -/
def completedCount (dag : Dag) : Nat := dag.succeeded + dag.failed + dag.killed

def tally? (dag : Dag) (vertex : VertexId) : Option Tally := dag.tallies[vertex.index]?

/-- Whether the job has counted how a vertex ended. -/
def isCounted (dag : Dag) (vertex : VertexId) : Bool := (dag.tally? vertex).any (·.isCounted)

def vertexName (dag : Dag) (vertex : VertexId) : String :=
  (dag.vertexNames[vertex.index]?).getD "<unknown>"

def note (dag : Dag) (diagnostic : DagDiagnostic) : Dag :=
  { dag with diagnostics := dag.diagnostics ++ [diagnostic] }

/-- One signal for every vertex, in order. -/
def broadcast (dag : Dag) (signal : VertexSignal) : List Event :=
  (List.range dag.vertexCount).map (fun index => .vertex ⟨index⟩ signal)

/-- Ends the job; the owner is told the first time. -/
def conclude (dag : Dag) (phase : Phase) : Step Dag where
  machine := { dag with phase := phase, ownerTold := true }
  outbound := if dag.ownerTold then [] else [.finished dag.id phase]

/-- Tells some vertices to die, and remembers it. -/
def tellToDie (dag : Dag) (targets : List VertexId) : Step Dag where
  machine := { dag with
    tallies := dag.tallies.mapIdx (fun index tally =>
      if ⟨index⟩ ∈ targets then { tally with killRequested := true } else tally) }
  outbound := targets.map (.vertex · .kill)

/-- Carries out what the tallies and the cause ask for. -/
def windUp (dag : Dag) (fresh : Bool) : Step Dag :=
  let consequence := Consequence.of dag.tallies dag.cause fresh
  (dag.tellToDie consequence.toKill).andThen (fun dag =>
    match consequence.finalPhase with
    | some phase => dag.conclude phase
    | none => .rest dag)

/-- Ends the job in `error`. Vertices that may be running are told to die. -/
def endInError (dag : Dag) : Step Dag :=
  (if dag.phase = .running ∨ dag.phase = .killWait then
      dag.tellToDie (Tally.killable dag.tallies)
    else .rest dag).andThen (conclude · .error)

def violate (dag : Dag) (reason : DagViolation) : Step Dag :=
  (Step.mk (dag.note (.violation reason)) [] [.dagViolation dag.id dag.phase reason]).andThen
    endInError

/-- Takes up a cause, which only counts while there is none. -/
def blame (dag : Dag) (cause : Cause) : Dag := { dag with cause := dag.cause.orElse cause }

def killByUser (dag : Dag) : Step Dag :=
  let fresh := dag.cause.accepts .userKill
  let dag := if fresh then dag.note .userKill else dag
  windUp { dag.blame .userKill with phase := .killWait } fresh

/-- Counts the end of a vertex that was not counted before. A vertex that failed, or was killed
though nobody asked for it, gives the job a cause; one in `error` ends the job. -/
def account (dag : Dag) (vertex : VertexId) (tally : Tally) (phase : Phase) : Step Dag :=
  let name := dag.vertexName vertex
  let dag := { dag with
    tallies := dag.tallies.set vertex.index { tally with completed := some phase } }
  match phase with
  | .succeeded => windUp { dag with succeeded := dag.succeeded + 1 } false
  | .failed =>
    let dag := { dag with failed := dag.failed + 1 }
    windUp ((dag.note (.vertexFailed name)).blame .vertexFailure) (dag.cause.accepts .vertexFailure)
  | .killed =>
    let dag := { dag with killed := dag.killed + 1 }
    if tally.killRequested then windUp dag false
    else
      let noted := dag.note (.vertexKilled name)
      windUp (noted.blame .vertexFailure) (dag.cause.accepts .vertexFailure)
  | _ =>
    let dag := { dag with failed := dag.failed + 1 }
    (Step.mk (dag.note (.vertexErred name)) [] [.vertexErred dag.id name]).andThen endInError

/-- The end of a vertex as a live job hears of it; only the first report of a vertex counts. -/
def vertexOver (dag : Dag) (vertex : VertexId) (phase : Phase) : Step Dag :=
  if ¬ phase.isTerminal then dag.violate (.notTerminal vertex phase)
  else match dag.tally? vertex with
    | none => dag.violate (.unknownVertex vertex)
    | some tally => if tally.isCounted then .rest dag else dag.account vertex tally phase

def handleInit (dag : Dag) : Step Dag :=
  match dag.phase with
  | .new => { machine := { dag with phase := .inited }, outbound := dag.broadcast .init }
  | .error => .rest dag
  | phase => dag.violate (.unexpected .init phase)

def handleStart (dag : Dag) : Step Dag :=
  match dag.phase with
  | .inited => { machine := { dag with phase := .running }, outbound := dag.broadcast .start }
  | .error => .rest dag
  | phase => dag.violate (.unexpected .start phase)

def handleKill (dag : Dag) : Step Dag :=
  match dag.phase with
  | .inited | .running => dag.killByUser
  | .killWait | .succeeded | .failed | .killed | .error => .rest dag
  | .new => dag.violate (.unexpected .kill .new)

def handleVertexCompleted (dag : Dag) (vertex : VertexId) (phase : Phase) : Step Dag :=
  match dag.phase with
  | .running | .killWait => dag.vertexOver vertex phase
  | .error => .rest dag
  | .succeeded | .failed | .killed =>
    if dag.isCounted vertex then .rest dag
    else dag.violate (.unexpected (.vertexCompleted vertex phase) dag.phase)
  | .new | .inited => dag.violate (.unexpected (.vertexCompleted vertex phase) dag.phase)

/-- One step of a job. -/
def handle (dag : Dag) : DagSignal → Step Dag
  | .init => dag.handleInit
  | .start => dag.handleStart
  | .kill => dag.handleKill
  | .vertexCompleted vertex phase => dag.handleVertexCompleted vertex phase

end Dag

end JobFlow
