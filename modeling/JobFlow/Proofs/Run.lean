import Mathlib.Data.List.Induction
import JobFlow.Coordinator
import JobFlow.Plan.Builder
import JobFlow.Proofs.Delivery

/-!
Runs of a coordinator that is not shut down. A move of a run is a dispatch from outside or the delivery
of the first event of a lane, so every order of deliveries is a run. What matters of a coordinator is
its situation: the attempt and what waits on each lane. Every delivery is one reaction of the attempt.
-/

namespace JobFlow

/-- What an event does to an attempt, as one step. -/
def Attempt.react (attempt : Attempt) : Event → Step Attempt
  | .dag id signal =>
    if id ≠ attempt.id then { machine := attempt, notices := [.foreignDag attempt.id id] }
    else
      let step := attempt.dag.handle signal
      let published :=
        if step.machine.phase = attempt.dag.phase then attempt.published else step.machine.phase
      { step with machine := { attempt with dag := step.machine, published := published } }
  | .vertex id signal =>
    match attempt.vertex? id with
    | none => { machine := attempt, notices := [.unknownVertex attempt.id id] }
    | some vertex =>
      let step := vertex.handle signal
      { step with
        machine := { attempt with vertices := attempt.vertices.set id.index step.machine } }
  | .tasks vertex request =>
    match attempt.layer with
    | none => .rest attempt
    | some layer =>
      { machine := { attempt with layer := some (layer.record vertex request) }
        outbound := layer.reports request }
  | .finished dag phase => .rest { attempt with finished := attempt.finished ++ [(dag, phase)] }

/-- An attempt and the events that wait for each entity. -/
@[ext]
structure Situation where
  attempt : Attempt
  queue : Entity → List Event

namespace Situation

/-- Puts events at the ends of their lanes, in order. -/
def send (situation : Situation) (events : List Event) : Situation :=
  { situation with
    queue := fun entity => situation.queue entity ++ events.filter (·.entity = entity) }

/-- Leaves the rest on a lane and carries out a step. -/
def take (situation : Situation) (entity : Entity) (rest : List Event) (step : Step Attempt) :
    Situation :=
  send ⟨step.machine, fun other => if other = entity then rest else situation.queue other⟩
    step.outbound

/-- Takes an event out of the lane that it heads and lets the attempt react. -/
def react (situation : Situation) (entity : Entity) (event : Event) (rest : List Event) : Situation :=
  situation.take entity rest (situation.attempt.react event)

/-- Delivers the first event of a lane; an empty lane changes nothing. -/
def deliver (situation : Situation) (entity : Entity) : Situation :=
  match situation.queue entity with
  | [] => situation
  | event :: rest => situation.react entity event rest

/-- Nothing waits on any lane. -/
def Quiet (situation : Situation) : Prop := ∀ entity, situation.queue entity = []

@[simp] theorem queue_send (situation : Situation) (events : List Event) (entity : Entity) :
    (situation.send events).queue entity =
      situation.queue entity ++ events.filter (·.entity = entity) := rfl

@[simp] theorem attempt_take (situation : Situation) (entity : Entity) (rest : List Event)
    (step : Step Attempt) : (situation.take entity rest step).attempt = step.machine := rfl

theorem queue_take (situation : Situation) (entity : Entity) (rest : List Event) (step : Step Attempt)
    (other : Entity) : (situation.take entity rest step).queue other =
      (if other = entity then rest else situation.queue other) ++
        step.outbound.filter (·.entity = other) := rfl

end Situation

namespace Attempt

theorem onDag_eq (attempt : Attempt) (id : DagId) (signal : DagSignal) :
    attempt.onDag (.dag id signal) = .ofStep (attempt.react (.dag id signal)) := by
  rw [onDag, react]
  dsimp only
  split <;> rfl

theorem onVertex_eq (attempt : Attempt) (id : VertexId) (signal : VertexSignal) :
    attempt.onVertex (.vertex id signal) = .ofStep (attempt.react (.vertex id signal)) := by
  rw [onVertex, react]
  dsimp only
  cases attempt.vertex? id <;> rfl

theorem layer_react_of_none {attempt : Attempt} (hlayer : attempt.layer = none) (event : Event) :
    (attempt.react event).machine.layer = none := by
  cases event with
  | dag id signal =>
      rw [react]
      dsimp only
      split <;> exact hlayer
  | vertex id signal =>
      rw [react]
      dsimp only
      cases attempt.vertex? id <;> exact hlayer
  | tasks vertex request =>
      rw [react, hlayer]
      exact hlayer
  | finished dag phase => exact hlayer

end Attempt

namespace Dispatcher

/-- A task layer gets all of its reports accepted. -/
theorem Open.perform_insist {dispatcher : Dispatcher Attempt} (hopen : dispatcher.Open) (host : HostId)
    (event : Event) (attempt : Attempt) (reports : List Event) :
    Absorbs dispatcher { machine := attempt, outbound := reports }
      (dispatcher.perform (some host) event (attempt.insist reports)) := by
  induction reports generalizing dispatcher with
  | nil => exact absorbs_done hopen attempt
  | cons first rest ih =>
      have h := ih (hopen.dispatch_fst first host)
      rw [Attempt.insist, perform]
      simp only [hopen.dispatch_snd first host]
      exact h.after_dispatch hopen

/-- An open dispatcher whose handlers are those of an attempt. Without a task layer there is no
handler for its requests. -/
structure Routed (dispatcher : Dispatcher Attempt) : Prop where
  isOpen : dispatcher.Open
  onDag : dispatcher.handlers .dag = some Attempt.onDag
  onVertex : dispatcher.handlers .vertex = some Attempt.onVertex
  onFinished : dispatcher.handlers .finished = some Attempt.onFinished
  onTasks : dispatcher.handlers .tasks = some Attempt.onTasks ∨
    dispatcher.handlers .tasks = none ∧ dispatcher.state.layer = none

/-- Handling an event is the reaction of the attempt to it. -/
theorem Routed.absorbs_handle {dispatcher : Dispatcher Attempt} (hrouted : dispatcher.Routed)
    (host : HostId) (event : Event) :
    Absorbs dispatcher (dispatcher.state.react event) (dispatcher.handle (some host) event) := by
  have hopen := hrouted.isOpen
  rw [handle]
  cases event with
  | dag id signal =>
      rw [Event.kind, hrouted.onDag]
      dsimp only
      rw [Attempt.onDag_eq]
      exact hopen.perform_ofStep _ _ _
  | vertex id signal =>
      rw [Event.kind, hrouted.onVertex]
      dsimp only
      rw [Attempt.onVertex_eq]
      exact hopen.perform_ofStep _ _ _
  | finished dag phase =>
      rw [Event.kind, hrouted.onFinished]
      exact absorbs_done hopen _
  | tasks vertex request =>
      rcases hrouted.onTasks with honTasks | ⟨hnone, hlayer⟩
      · rw [Event.kind, honTasks]
        dsimp only
        unfold Attempt.onTasks Attempt.react
        dsimp only
        cases dispatcher.state.layer with
        | none => exact absorbs_done hopen _
        | some layer => exact hopen.perform_insist _ _ _ _
      · rw [Event.kind, hnone]
        dsimp only
        rw [Attempt.react, hlayer]
        exact absorbs_done hopen dispatcher.state

theorem Routed.of_absorbs {before after : Dispatcher Attempt} (hrouted : before.Routed) {step : Step Attempt}
    (h : Absorbs before step after)
    (hlayer : before.state.layer = none → step.machine.layer = none) : after.Routed where
  isOpen := h.isOpen
  onDag := by rw [h.handlers, hrouted.onDag]
  onVertex := by rw [h.handlers, hrouted.onVertex]
  onFinished := by rw [h.handlers, hrouted.onFinished]
  onTasks := by
    rw [h.handlers, h.state]
    exact hrouted.onTasks.imp_right (And.imp_right hlayer)

/-- No lane has anything waiting if nothing waits at all. -/
theorem queue_eq_nil_of_queued {σ : Type} {dispatcher : Dispatcher σ} (hqueued : dispatcher.queued = 0)
    (entity : Entity) : dispatcher.queue entity = [] := by
  rw [queue, lane?]
  cases hlane : dispatcher.lanes.lookup entity with
  | none => rfl
  | some lane =>
      obtain ⟨before, after, hlanes, -⟩ := List.lookup_eq_some_iff.mp hlane
      have hmem : (entity, lane) ∈ dispatcher.lanes := by
        rw [hlanes]
        exact List.mem_append_right _ List.mem_cons_self
      exact List.flatMap_eq_nil_iff.mp (List.length_eq_zero_iff.mp hqueued) (entity, lane) hmem

end Dispatcher

/-- A move of a run. -/
inductive Move where
  | send (event : Event)
  | deliver (entity : Entity)
  deriving DecidableEq

namespace Coordinator

def situation (coordinator : Coordinator) : Situation :=
  ⟨coordinator.attempt, coordinator.dispatcher.queue⟩

def move (coordinator : Coordinator) : Move → Coordinator
  | .send event => (coordinator.dispatch event).1
  | .deliver entity => coordinator.deliver entity

/-- The coordinator after the moves of a run. -/
def after (coordinator : Coordinator) (moves : List Move) : Coordinator :=
  moves.foldl move coordinator

/-- The event that a move hands to a handler, if it is a delivery from a lane that is not empty. -/
def handled (coordinator : Coordinator) : Move → List Event
  | .send _ => []
  | .deliver entity => (coordinator.dispatcher.queue entity).head?.toList

/-- The events that were handed to handlers in a run, in order. -/
def delivered (coordinator : Coordinator) : List Move → List Event
  | [] => []
  | move :: rest => coordinator.handled move ++ (coordinator.move move).delivered rest

/-- With a task layer, or without one. -/
def equip (coordinator : Coordinator) : Option TaskLayer → Coordinator
  | none => coordinator
  | some layer => coordinator.install layer

theorem after_concat (coordinator : Coordinator) (moves : List Move) (last : Move) :
    coordinator.after (moves ++ [last]) = (coordinator.after moves).move last := by
  rw [after, List.foldl_append]
  rfl

theorem delivered_concat (coordinator : Coordinator) (moves : List Move) (last : Move) :
    coordinator.delivered (moves ++ [last]) =
      coordinator.delivered moves ++ (coordinator.after moves).handled last := by
  induction moves generalizing coordinator with
  | nil => simp [delivered, after]
  | cons first rest ih =>
      rw [List.cons_append, delivered, delivered, ih, List.append_assoc]
      rfl

theorem situation_dispatch {coordinator : Coordinator} (hrouted : coordinator.dispatcher.Routed)
    (event : Event) :
    (coordinator.dispatch event).1.situation = coordinator.situation.send [event] := by
  obtain ⟨lane, heq, hlane⟩ := hrouted.isOpen.dispatch event ⟨0⟩
  rw [Coordinator.dispatch, situation, attempt, heq]
  apply Situation.ext
  · rfl
  · funext entity
    exact Dispatcher.queue_accept _ _ _ hlane entity

theorem routed_dispatch {coordinator : Coordinator} (hrouted : coordinator.dispatcher.Routed)
    (event : Event) : (coordinator.dispatch event).1.dispatcher.Routed := by
  have hopen := hrouted.isOpen.dispatch_fst event ⟨0⟩
  obtain ⟨lane, heq, -⟩ := hrouted.isOpen.dispatch event ⟨0⟩
  rw [Coordinator.dispatch]
  rw [heq] at hopen ⊢
  exact ⟨hopen, hrouted.onDag, hrouted.onVertex, hrouted.onFinished, hrouted.onTasks⟩

theorem log_dispatch {coordinator : Coordinator} (hrouted : coordinator.dispatcher.Routed)
    {event : Event} {notice : Notice}
    (hnotice : notice ∈ (coordinator.dispatch event).1.dispatcher.log) :
    notice ∈ coordinator.dispatcher.log ∨ ∃ lane depth, notice = .backlog lane depth := by
  obtain ⟨lane, heq, -⟩ := hrouted.isOpen.dispatch event ⟨0⟩
  unfold Coordinator.dispatch at hnotice
  rw [heq] at hnotice
  exact Dispatcher.mem_log_accept hnotice

/-- A delivery from a lane that is not empty, seen from outside: the attempt reacts. -/
theorem deliver_cons {coordinator : Coordinator} (hrouted : coordinator.dispatcher.Routed)
    {entity : Entity} {event : Event} {rest : List Event}
    (hqueue : coordinator.dispatcher.queue entity = event :: rest) :
    (coordinator.deliver entity).situation = coordinator.situation.react entity event rest ∧
    (coordinator.deliver entity).dispatcher.Routed ∧
    ∀ notice ∈ (coordinator.deliver entity).dispatcher.log,
      notice ∈ coordinator.dispatcher.log ∨ notice ∈ (coordinator.attempt.react event).notices ∨
        ∃ lane depth, notice = .backlog lane depth := by
  obtain ⟨host, hhost⟩ := Dispatcher.exists_host hqueue
  have hpopped : (coordinator.dispatcher.popped entity).Routed := by
    refine ⟨hrouted.isOpen.popped entity, ?_, ?_, ?_, ?_⟩ <;> rw [Dispatcher.handlers_popped]
    · exact hrouted.onDag
    · exact hrouted.onVertex
    · exact hrouted.onFinished
    · rw [Dispatcher.state_popped]
      exact hrouted.onTasks
  have habsorbs := hpopped.absorbs_handle host event
  have hafter := hpopped.of_absorbs habsorbs
    (fun hlayer => Attempt.layer_react_of_none hlayer event)
  rw [Dispatcher.state_popped] at habsorbs
  rw [Coordinator.deliver, Dispatcher.deliver_eq hqueue, hhost]
  refine ⟨?_, ?_, ?_⟩
  · apply Situation.ext
    · exact habsorbs.state
    · funext other
      have hother := habsorbs.queue other
      rw [Dispatcher.queue_popped hqueue] at hother
      exact hother
  · exact ⟨⟨hafter.isOpen.accepting, hafter.isOpen.gone⟩, hafter.onDag, hafter.onVertex,
      hafter.onFinished, hafter.onTasks⟩
  · intro notice hnotice
    rw [← Dispatcher.log_popped coordinator.dispatcher entity]
    exact habsorbs.log notice hnotice

theorem deliver_nil {coordinator : Coordinator} {entity : Entity}
    (hqueue : coordinator.dispatcher.queue entity = []) :
    coordinator.deliver entity = coordinator := by
  rw [Coordinator.deliver, Dispatcher.deliver_of_queue_eq_nil hqueue]

theorem situation_deliver {coordinator : Coordinator} (hrouted : coordinator.dispatcher.Routed)
    (entity : Entity) :
    (coordinator.deliver entity).situation = coordinator.situation.deliver entity := by
  rw [Situation.deliver]
  cases hqueue : coordinator.situation.queue entity with
  | nil => rw [deliver_nil hqueue]
  | cons event rest => exact (deliver_cons hrouted hqueue).1

theorem routed_deliver {coordinator : Coordinator} (hrouted : coordinator.dispatcher.Routed)
    (entity : Entity) : (coordinator.deliver entity).dispatcher.Routed := by
  cases hqueue : coordinator.dispatcher.queue entity with
  | nil => rwa [deliver_nil hqueue]
  | cons event rest => exact (deliver_cons hrouted hqueue).2.1

theorem routed_after {coordinator : Coordinator} (hrouted : coordinator.dispatcher.Routed)
    (moves : List Move) : (coordinator.after moves).dispatcher.Routed := by
  induction moves generalizing coordinator with
  | nil => exact hrouted
  | cons first rest ih =>
      cases first with
      | send event => exact ih (routed_dispatch hrouted event)
      | deliver entity => exact ih (routed_deliver hrouted entity)

/-- What holds of the situation at the start of a run and survives every move holds in all of it. -/
theorem situation_induction {coordinator : Coordinator} (hrouted : coordinator.dispatcher.Routed)
    {motive : List Move → Situation → Prop} (hstart : motive [] coordinator.situation)
    (hsend : ∀ earlier event, motive earlier (coordinator.after earlier).situation →
      motive (earlier ++ [.send event]) ((coordinator.after earlier).situation.send [event]))
    (hdeliver : ∀ earlier entity, motive earlier (coordinator.after earlier).situation →
      motive (earlier ++ [.deliver entity])
        ((coordinator.after earlier).situation.deliver entity))
    (moves : List Move) : motive moves (coordinator.after moves).situation := by
  induction moves using List.reverseRecOn with
  | nil => exact hstart
  | append_singleton earlier last ih =>
      have hearlier := routed_after hrouted earlier
      rw [after_concat]
      cases last with
      | send event =>
          rw [move, situation_dispatch hearlier]
          exact hsend earlier event ih
      | deliver entity =>
          rw [move, situation_deliver hearlier]
          exact hdeliver earlier entity ih

/-- A job that was submitted, before the first move. -/
theorem submit_ok {id : DagId} {plan : Plan} {config : Config} {coordinator : Coordinator}
    (hsubmit : submit id plan config = .ok coordinator) (layer : Option TaskLayer) :
    ∃ graph, Graph.ofPlan plan = .ok graph ∧ (coordinator.equip layer).dispatcher.Routed ∧
      (coordinator.equip layer).dispatcher.log = [] ∧
      (coordinator.equip layer).dispatcher.lanes = [] ∧
      (coordinator.equip layer).dispatcher.inFlight = 0 ∧ (coordinator.equip layer).situation =
        ⟨{ Attempt.create id plan graph config.settings.gating with layer := layer },
          fun _ => []⟩ := by
  unfold submit at hsubmit
  cases hgraph : Graph.ofPlan plan with
  | error defect => simp [hgraph, bind, Except.bind] at hsubmit
  | ok graph =>
      simp only [hgraph, bind, Except.bind, pure, Except.pure, Except.ok.injEq] at hsubmit
      subst hsubmit
      refine ⟨graph, rfl, ?_⟩
      cases layer with
      | none =>
          exact ⟨⟨⟨rfl, rfl⟩, rfl, rfl, rfl, Or.inr ⟨rfl, rfl⟩⟩, rfl, rfl, rfl, rfl⟩
      | some layer => exact ⟨⟨⟨rfl, rfl⟩, rfl, rfl, rfl, Or.inl rfl⟩, rfl, rfl, rfl, rfl⟩

/-- Nothing waits once the lanes are empty. -/
theorem quiet_of_queued {coordinator : Coordinator} (hqueued : coordinator.dispatcher.queued = 0) :
    coordinator.situation.Quiet := Dispatcher.queue_eq_nil_of_queued hqueued

/-! ### A job of two vertices -/

/-- The graph of two vertices with a task each, the second of which waits for the first. -/
def lineGraph : Graph where
  nodes := [⟨"v0", [], [⟨1⟩], 0⟩, ⟨"v1", [⟨0⟩], [], 1⟩]
  edges := [⟨"e1", "v0", "v1", .bipartite, .stable⟩]
  order := [⟨0⟩, ⟨1⟩]

theorem ofPlan_line : Graph.ofPlan (.chain 2 1) = .ok lineGraph := by
  have harcs : (Plan.chain 2 1).arcs = .ok [⟨⟨0⟩, ⟨1⟩⟩] := by decide
  have hids : (Plan.chain 2 1).vertexIds = [⟨0⟩, ⟨1⟩] := by decide
  have horder : Arc.order [⟨⟨0⟩, ⟨1⟩⟩] [⟨0⟩, ⟨1⟩] = .ok [⟨0⟩, ⟨1⟩] := by
    simp [Arc.order, Arc.targetsOf, Arc.sourcesOf, Search.topologicalOrder, Search.finishingOrder,
      Search.explore, Search.secondVisited?, Search.unwind]
  rw [Graph.ofPlan, harcs, hids]
  simp only [bind, Except.bind, horder]
  rfl

/-- Its coordinator, with the second vertex held back until the first has succeeded. -/
def line : Coordinator where
  graph := lineGraph
  dispatcher := (((Dispatcher.create 1024
      (.create ⟨1⟩ (.chain 2 1) lineGraph .sourceSucceeded)).register .dag Attempt.onDag).register
        .vertex Attempt.onVertex).register .finished Attempt.onFinished

def lineConfig : Config where
  settings := { gating := .sourceSucceeded }

theorem submit_line : submit ⟨1⟩ (.chain 2 1) lineConfig = .ok line := by
  rw [submit, ofPlan_line]
  rfl

/-- The lanes of the job, to be served in turn. -/
def lineLanes : List Entity :=
  [.dag ⟨1⟩, .vertex ⟨0⟩, .vertex ⟨1⟩, .tasks ⟨0⟩, .tasks ⟨1⟩, .owner ⟨1⟩]

/-- A run that initialises and starts the job and then serves its lanes in turn. -/
def lineRun (rounds : Nat) : List Move :=
  .send (.dag ⟨1⟩ .init) :: .send (.dag ⟨1⟩ .start) ::
    (List.replicate rounds lineLanes).flatten.map .deliver

end Coordinator

end JobFlow
