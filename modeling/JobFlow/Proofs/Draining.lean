import JobFlow.Proofs.Dispatcher.Emptying
import JobFlow.Proofs.Graph.Edges
import JobFlow.Proofs.Operation
import JobFlow.Proofs.Outcome
import JobFlow.Proofs.Potential

/-!
Draining always ends. What waits and what the machines hold in reserve bound the deliveries that are still
to come, and only what is sent from outside adds to the bound. Main statement: the number of deliveries in
a run is bounded by the plan and by what was sent from outside, in whatever order lanes are served, so
serving the lanes leaves nothing waiting in the end.
-/

namespace JobFlow

/-! ### What a plan may cost -/

theorem Dag.potential_le (dag : Dag) : dag.potential ≤ Coordinator.dagCost dag := by
  have hspared : dag.spared ≤ dag.vertexCount := by
    rw [spared]
    calc _ ≤ (List.range dag.vertexCount).length := List.countP_le_length
      _ = dag.vertexCount := List.length_range
  unfold potential Coordinator.dagCost
  split <;> split <;> split <;> omega

theorem Vertex.potential_le (vertex : Vertex) : vertex.potential ≤ Coordinator.vertexCost vertex := by
  have hslots : vertex.slots.length ≤ max vertex.progress.total vertex.slots.length := Nat.le_max_right _ _
  have htotal : vertex.progress.total ≤ max vertex.progress.total vertex.slots.length :=
    Nat.le_max_left _ _
  have hkills : vertex.phase.killsLeft * (1 + vertex.slots.length) ≤ 2 * (1 + vertex.slots.length) := by
    apply Nat.mul_le_mul_right
    cases vertex.phase <;> simp [Phase.killsLeft]
  unfold potential Coordinator.vertexCost
  split <;> split <;> omega

theorem Attempt.potential_le (attempt : Attempt) : attempt.potential ≤
    Coordinator.dagCost attempt.dag + (attempt.vertices.map Coordinator.vertexCost).sum :=
  Nat.add_le_add attempt.dag.potential_le (List.sum_le_sum fun vertex _ => vertex.potential_le)

/-- The deliveries that a plan may cost by itself: for each vertex the signals of the job, its requests
and its news, for each edge two signals, for each task three reports, and the notification of the owner. -/
def Plan.deliveryBound (plan : Plan) : Nat :=
  7 * plan.vertices.length + 2 * plan.edges.length + 3 * plan.taskTotal + 1

theorem vertexCost_create (dag : DagId) (id : VertexId) (spec : VertexSpec) (graph : Graph)
    (gating : Gating) : Coordinator.vertexCost (.create dag id spec graph gating) =
      4 + 2 * (graph.targets id).length + 3 * spec.taskCount := by
  unfold Coordinator.vertexCost Vertex.create
  dsimp only
  rw [List.length_replicate, Nat.max_self]

theorem sum_map_zip {α β : Type} (f : α → Nat) (g : β → Nat) {left : List α} {right : List β}
    (hlength : left.length = right.length) :
    ((left.zip right).map (fun pair => 4 + 2 * f pair.1 + 3 * g pair.2)).sum =
      4 * right.length + 2 * (left.map f).sum + 3 * (right.map g).sum := by
  induction left generalizing right with
  | nil =>
      cases right with
      | nil => rfl
      | cons _ _ => cases hlength
  | cons first rest ih =>
      cases right with
      | nil => cases hlength
      | cons other others =>
          have hrest := ih (Nat.succ.inj hlength)
          rw [List.zip_cons_cons, List.map_cons, List.map_cons, List.map_cons, List.sum_cons, List.sum_cons,
            List.sum_cons, hrest, List.length_cons]
          dsimp only
          omega

/-- At the start the machines hold no more in reserve than the plan may cost. -/
theorem Attempt.potential_create (setting : Setting) :
    (create setting.id setting.plan setting.graph setting.gating).potential ≤
      setting.plan.deliveryBound := by
  have hlength : setting.graph.vertexIds.length = setting.plan.vertices.length := by
    rw [Graph.vertexIds, List.length_map, List.length_range, setting.size]
  have hcount : (Dag.create setting.id setting.plan.name setting.graph).vertexCount =
      setting.plan.vertices.length := List.length_replicate.trans setting.size
  have htargets := Graph.sum_length_targets_le setting.built
  have hvertices := sum_map_zip (fun id => (setting.graph.targets id).length) (·.taskCount) hlength
  have hcosts : (create setting.id setting.plan setting.graph setting.gating).vertices.map
      Coordinator.vertexCost = (setting.graph.vertexIds.zip setting.plan.vertices).map
        (fun pair => 4 + 2 * (setting.graph.targets pair.1).length + 3 * pair.2.taskCount) := by
    rw [create, List.map_map]
    apply List.map_congr_left
    rintro ⟨id, spec⟩ -
    exact vertexCost_create _ _ _ _ _
  calc _ ≤ (3 * setting.plan.vertices.length + 1) + (4 * setting.plan.vertices.length +
        2 * (setting.graph.vertexIds.map (fun id => (setting.graph.targets id).length)).sum +
        3 * setting.plan.taskTotal) := by
          rw [Plan.taskTotal, ← hvertices, ← hcosts, ← hcount]
          exact potential_le _
    _ ≤ setting.plan.deliveryBound := by
          unfold Plan.deliveryBound
          omega

/-! ### One operation -/

/-- The event that an operation dispatches. -/
def Operation.sent? : Operation → Option Event
  | .send event _ => some event
  | .deliver _ | .refuse | .close => none

theorem cost_le_of_sublist {events later : List Event} (hsublist : events.Sublist later) :
    cost events ≤ cost later := by
  induction hsublist with
  | slnil => exact Nat.le_refl _
  | cons event _ ih =>
      rw [cost_cons]
      omega
  | cons_cons event _ ih =>
      rw [cost_cons, cost_cons]
      omega

namespace Coordinator

/-- What waits, and what the machines hold in reserve. -/
def potential (coordinator : Coordinator) : Nat :=
  coordinator.dispatcher.load waitingCost + coordinator.attempt.potential

/-- A manned coordinator that has a lane for each entity and knows how many events wait. -/
structure Tracked (setting : Setting) (coordinator : Coordinator) : Prop
    extends Manned setting coordinator where
  distinct : coordinator.dispatcher.Distinct
  inFlight : coordinator.dispatcher.inFlight = coordinator.dispatcher.queued

theorem queued_le_load (dispatcher : Dispatcher Attempt) :
    dispatcher.queued ≤ dispatcher.load waitingCost := by
  rw [dispatcher.queued_eq_load]
  exact Lane.weigh_le one_le_waitingCost _

variable {setting : Setting} {coordinator : Coordinator}

/-- A dispatch that is accepted adds its event to what waits. -/
theorem Tracked.send (htracked : coordinator.Tracked setting) (event : Event) (caller : Option HostId) :
    (coordinator.operate (.send event caller)).Tracked setting ∧
      (coordinator.operate (.send event caller)).potential ≤
        coordinator.potential + waitingCost event := by
  obtain ⟨sent, hsent, hgains⟩ := coordinator.dispatcher.gains_dispatch event caller
  have hattempt := (coordinator.handlers_send event caller).2
  have hcost : cost sent ≤ waitingCost event := cost_le_of_sublist hsent
  refine ⟨⟨htracked.toManned.operate _, hgains.distinct htracked.distinct, ?_⟩, ?_⟩
  · show (coordinator.dispatcher.dispatch event caller).1.inFlight =
      (coordinator.dispatcher.dispatch event caller).1.queued
    rw [hgains.inFlight, htracked.inFlight, hgains.queued htracked.distinct]
  · have hload : (coordinator.operate (.send event caller)).dispatcher.load waitingCost =
        coordinator.dispatcher.load waitingCost + cost sent :=
      hgains.load htracked.distinct waitingCost
    unfold potential
    rw [hattempt]
    omega

/-- A delivery lowers the potential. -/
theorem Tracked.deliver (htracked : coordinator.Tracked setting) (entity : Entity) :
    (coordinator.deliver entity).Tracked setting ∧
      (coordinator.served (.deliver entity)).length + (coordinator.deliver entity).potential ≤
        coordinator.potential := by
  cases hqueue : coordinator.dispatcher.queue entity with
  | nil =>
      rw [deliver_nil hqueue, served, hqueue]
      exact ⟨htracked, Nat.le_of_eq (Nat.zero_add _)⟩
  | cons event rest =>
      obtain ⟨sent, rfl, hdelivers⟩ := htracked.toManned.delivers hqueue
      have hturn := (htracked.sound.wired.turn event).potential htracked.sound.wired
      have hattempt : (coordinator.deliver event.entity).attempt =
          (coordinator.attempt.react event).machine := congrArg Situation.attempt hdelivers.situation
      refine ⟨⟨htracked.toManned.deliver _, hdelivers.distinct htracked.distinct, ?_⟩, ?_⟩
      · have hqueued := hdelivers.queued htracked.distinct
        rw [hdelivers.inFlight, htracked.inFlight]
        omega
      · have hsent := cost_le_of_sublist hdelivers.sublist
        have hwaiting : (coordinator.deliver event.entity).dispatcher.load waitingCost +
          waitingCost event = coordinator.dispatcher.load waitingCost + cost sent :=
            hdelivers.load htracked.distinct waitingCost
        have hpaid : (coordinator.attempt.react event).machine.potential +
          cost (coordinator.attempt.react event).outbound + 1 ≤
            coordinator.attempt.potential + waitingCost event := hturn
        rw [served_of_queue hqueue, List.length_singleton]
        unfold potential
        rw [hattempt]
        omega

theorem Tracked.close (htracked : coordinator.Tracked setting) :
    (coordinator.operate .close).Tracked setting ∧
      (coordinator.operate .close).potential ≤ coordinator.potential := by
  have hmanned := htracked.toManned.operate .close
  rw [operate] at hmanned ⊢
  split at hmanned
  next hqueued =>
    obtain ⟨notices, heq⟩ := coordinator.dispatcher.exists_closeLanes
    rw [if_pos hqueued]
    rw [heq] at hmanned ⊢
    refine ⟨⟨hmanned, List.nodup_nil, ?_⟩, ?_⟩
    · exact htracked.inFlight.trans hqueued
    · exact Nat.add_le_add_right (Nat.zero_le _) _
  next hqueued =>
    rw [if_neg hqueued]
    exact ⟨htracked, Nat.le_refl _⟩

/-- Every operation keeps track, and costs what it dispatches. -/
theorem Tracked.operate (htracked : coordinator.Tracked setting) (operation : Operation) :
    (coordinator.operate operation).Tracked setting ∧
      (coordinator.served operation).length + (coordinator.operate operation).potential ≤
        coordinator.potential + cost operation.sent?.toList := by
  cases operation with
  | send event caller =>
      obtain ⟨hafter, hpotential⟩ := htracked.send event caller
      refine ⟨hafter, ?_⟩
      show 0 + _ ≤ _ + (waitingCost event + 0)
      omega
  | deliver entity => exact htracked.deliver entity
  | refuse =>
      have hmanned := htracked.toManned.operate .refuse
      exact ⟨⟨hmanned, htracked.distinct, htracked.inFlight⟩, Nat.le_of_eq (Nat.zero_add _)⟩
  | close =>
      obtain ⟨hafter, hpotential⟩ := htracked.close
      refine ⟨hafter, ?_⟩
      show 0 + _ ≤ _ + 0
      omega

/-! ### Whole runs -/

theorem Tracked.through (htracked : coordinator.Tracked setting) (operations : List Operation) :
    (coordinator.through operations).Tracked setting := by
  induction operations generalizing coordinator with
  | nil => exact htracked
  | cons first rest ih => exact ih (htracked.operate first).1

/-- The deliveries of a run were paid for by what waited, by the reserves, and from outside. -/
theorem Tracked.length_along (htracked : coordinator.Tracked setting) (operations : List Operation) :
    (coordinator.along served operations).length + (coordinator.through operations).potential ≤
      coordinator.potential + cost (operations.filterMap Operation.sent?) := by
  induction operations generalizing coordinator with
  | nil => exact Nat.le_of_eq (Nat.zero_add _)
  | cons first rest ih =>
      obtain ⟨hafter, hfirst⟩ := htracked.operate first
      have hrest := ih hafter
      have hsent : cost ((first :: rest).filterMap Operation.sent?) =
          cost first.sent?.toList + cost (rest.filterMap Operation.sent?) := by
        rw [List.filterMap_cons]
        cases first.sent? with
        | none => exact (Nat.zero_add _).symm
        | some event => exact cost_append [event] _
      rw [along, List.length_append, hsent]
      show _ + ((coordinator.operate first).through rest).potential ≤ _
      omega

theorem sent_deliveries (entities : List Entity) :
    (entities.map Operation.deliver).filterMap Operation.sent? = [] := by
  rw [List.filterMap_eq_nil_iff]
  intro operation hoperation
  obtain ⟨entity, -, rfl⟩ := List.mem_map.mp hoperation
  rfl

/-- Serving lanes that are not empty comes to an end within the potential. -/
theorem Tracked.exists_empty (htracked : coordinator.Tracked setting) (schedule : Nat → Entity) :
    ∃ count ≤ coordinator.potential,
      (coordinator.through ((List.range count).map (fun turn => .deliver (schedule turn)))).dispatcher.queue
        (schedule count) = [] := by
  by_contra hnone
  have hbusy : ∀ count ≤ coordinator.potential,
      (coordinator.through ((List.range count).map (fun turn => .deliver (schedule turn)))).dispatcher.queue
        (schedule count) ≠ [] := fun count hcount hempty => hnone ⟨count, hcount, hempty⟩
  have hlength : ∀ count ≤ coordinator.potential + 1, (coordinator.along served
      ((List.range count).map (fun turn => .deliver (schedule turn)))).length = count := by
    intro count hcount
    induction count with
    | zero => rfl
    | succ count ih =>
        have hearlier := ih (by omega)
        obtain ⟨event, rest, hqueue⟩ := List.exists_cons_of_ne_nil (hbusy count (by omega))
        rw [List.range_succ, List.map_append, List.map_singleton, along_concat, List.length_append,
          hearlier, served_of_queue hqueue]
        rfl
  have hall := hlength (coordinator.potential + 1) (Nat.le_refl _)
  have hbound := htracked.length_along
    (((List.range (coordinator.potential + 1)).map schedule).map Operation.deliver)
  rw [sent_deliveries, cost_nil, List.map_map] at hbound
  unfold Function.comp at hbound
  omega

/-! ### Draining and shutting down -/

/-- Nothing is in flight exactly when nothing waits. -/
theorem Tracked.isIdle_iff (htracked : coordinator.Tracked setting) :
    coordinator.dispatcher.isIdle = true ↔ coordinator.situation.Quiet := by
  rw [Dispatcher.isIdle, beq_iff_eq, htracked.inFlight]
  constructor
  · exact quiet_of_queued
  · intro hquiet
    refine List.length_eq_zero_iff.mpr (List.flatMap_eq_nil_iff.mpr ?_)
    rintro ⟨entity, lane⟩ hmem
    have hempty : (coordinator.dispatcher.lanes.lookup entity).elim [] (·.queue) = [] := hquiet entity
    rw [Lane.lookup_of_mem htracked.distinct hmem] at hempty
    exact hempty

/-- Deliveries happen to the dispatcher of a coordinator. -/
theorem through_deliveries (coordinator : Coordinator) (entities : List Entity) :
    coordinator.through (entities.map .deliver) =
      { coordinator with dispatcher := coordinator.dispatcher.through (entities.map .deliver) } ∧
    (coordinator.along served (entities.map .deliver)).length =
      (coordinator.dispatcher.along Dispatcher.served (entities.map .deliver)).length := by
  induction entities generalizing coordinator with
  | nil => exact ⟨rfl, rfl⟩
  | cons first rest ih =>
      obtain ⟨hthrough, hserved⟩ := ih (coordinator.deliver first)
      have hfirst : (coordinator.served (.deliver first)).length =
          (coordinator.dispatcher.served (.deliver first)).length := by
        rw [served, Dispatcher.served, List.length_map]
      refine ⟨hthrough, ?_⟩
      rw [List.map_cons, List.map_cons, along, Dispatcher.along, List.length_append, List.length_append,
        hfirst]
      exact congrArg _ hserved

/-- To drain is to serve lanes that are not empty, up to the limit or until nothing waits. -/
theorem Tracked.exists_drain (htracked : coordinator.Tracked setting) (limit : Nat) :
    ∃ entities : List Entity,
      { coordinator with dispatcher := coordinator.dispatcher.drain limit } =
        coordinator.through (entities.map .deliver) ∧
      ((coordinator.along served (entities.map .deliver)).length = limit ∨
        (coordinator.through (entities.map .deliver)).dispatcher.queued = 0) := by
  obtain ⟨entities, hdrain, hend⟩ := Dispatcher.exists_drain htracked.distinct limit
  obtain ⟨hthrough, hserved⟩ := coordinator.through_deliveries entities
  exact ⟨entities, by rw [hthrough, hdrain], by rwa [hthrough, hserved]⟩

/-- The limit of a settlement is high enough for nothing to be left waiting. -/
theorem Tracked.settle (htracked : coordinator.Tracked setting) :
    (∃ entities : List Entity, coordinator.settle = coordinator.through (entities.map .deliver)) ∧
      coordinator.settle.situation.Quiet := by
  obtain ⟨entities, hdrain, hend⟩ := htracked.exists_drain coordinator.deliveryBound
  have hsettle : coordinator.settle = coordinator.through (entities.map .deliver) := hdrain
  refine ⟨⟨entities, hsettle⟩, ?_⟩
  rw [hsettle]
  apply quiet_of_queued
  rcases hend with hlength | hqueued
  · have hpaid := htracked.length_along (entities.map .deliver)
    have hlimit : coordinator.potential ≤ coordinator.deliveryBound := by
      unfold potential deliveryBound
      rw [Nat.add_assoc]
      exact Nat.add_le_add_left coordinator.attempt.potential_le _
    have hload := queued_le_load (coordinator.through (entities.map .deliver)).dispatcher
    rw [sent_deliveries, cost_nil, hlength] at hpaid
    unfold potential at hpaid hlimit
    omega
  · exact hqueued

/-- A shutdown is a run that refuses everything, serves what waits and closes the lanes. -/
theorem Tracked.shutdown (htracked : coordinator.Tracked setting)
    (haccepting : coordinator.dispatcher.stopped = false) : ∃ entities : List Entity,
      coordinator.shutdown =
        coordinator.through (.refuse :: entities.map .deliver ++ [.close]) := by
  obtain ⟨entities, hqueued, hstop, -⟩ := Dispatcher.exists_stop haccepting htracked.distinct
  have hthrough := ((coordinator.operate .refuse).through_deliveries entities).1
  refine ⟨entities, ?_⟩
  rw [List.cons_append]
  show _ = (coordinator.operate .refuse).through (entities.map .deliver ++ [.close])
  rw [through_concat, hthrough, Coordinator.shutdown, hstop]
  exact (if_pos hqueued).symm

theorem quiet_shutdown (haccepting : coordinator.dispatcher.stopped = false) :
    coordinator.shutdown.situation.Quiet := by
  intro entity
  show (coordinator.dispatcher.stop.lanes.lookup entity).elim [] (·.queue) = []
  rw [Dispatcher.stop, haccepting, if_neg Bool.false_ne_true, Dispatcher.lanes_closeLanes]
  rfl

/-! ### From the submission on -/

/-- A coordinator that was just set up has lost track of nothing, and costs what its plan may cost. -/
theorem tracked_of_submit {id : DagId} {plan : Plan} {config : Config} {coordinator : Coordinator}
    (hsubmit : submit id plan config = .ok coordinator) (layer : Option TaskLayer) :
    ∃ setting, (coordinator.equip layer).Tracked setting ∧
      (coordinator.equip layer).potential ≤ plan.deliveryBound := by
  obtain ⟨setting, -, rfl, -, hfresh⟩ := fresh_of_submit hsubmit layer
  obtain ⟨-, -, -, -, hlanes, hinFlight, -⟩ := submit_ok hsubmit layer
  have hattempt : (coordinator.equip layer).attempt.potential =
      (Attempt.create setting.id setting.plan setting.graph setting.gating).potential :=
    congrArg (·.attempt.potential) hfresh.situation
  refine ⟨setting, ⟨hfresh.manned, ?_, ?_⟩, ?_⟩
  · rw [Dispatcher.Distinct, hlanes]
    exact List.nodup_nil
  · rw [hinFlight, Dispatcher.queued, hlanes]
    rfl
  · have hload : (coordinator.equip layer).dispatcher.load waitingCost = 0 := by
      rw [Dispatcher.load, hlanes]
      rfl
    rw [potential, hload, hattempt, Nat.zero_add]
    exact Attempt.potential_create setting

/-- Draining always ends. Whatever is sent from outside, with any task layer or none and in whatever order
lanes are served, also when the coordinator is shut down on the way: the plan and the events from outside
bound the number of deliveries, so no lane can be found waiting for ever. Nothing is in flight exactly
when nothing waits, and that is where a settlement leads, and a shutdown, which is one more run. -/
theorem draining_ends {id : DagId} {plan : Plan} {config : Config} {coordinator : Coordinator}
    (hsubmit : Coordinator.submit id plan config = .ok coordinator) (layer : Option TaskLayer)
    (operations : List Operation) :
    let start := coordinator.equip layer
    let reached := start.through operations
    let bound := plan.deliveryBound + cost (operations.filterMap Operation.sent?)
    (start.along served operations).length ≤ bound ∧
    (∀ schedule : Nat → Entity, ∃ count ≤ bound,
      (reached.through ((List.range count).map (fun turn => .deliver (schedule turn)))).dispatcher.queue
        (schedule count) = []) ∧
    (reached.dispatcher.isIdle = true ↔ reached.situation.Quiet) ∧
    (∃ entities : List Entity, reached.settle = reached.through (entities.map .deliver)) ∧
    reached.settle.situation.Quiet ∧ reached.settle.dispatcher.isIdle = true ∧
    (reached.dispatcher.stopped = false →
      (∃ entities : List Entity,
        reached.shutdown = reached.through (.refuse :: entities.map .deliver ++ [.close])) ∧
      reached.shutdown.situation.Quiet ∧ reached.shutdown.dispatcher.isIdle = true) := by
  obtain ⟨setting, htracked, hstart⟩ := tracked_of_submit hsubmit layer
  intro start reached bound
  have hreached : reached.Tracked setting := htracked.through operations
  have hpaid : (start.along served operations).length + reached.potential ≤
      start.potential + cost (operations.filterMap Operation.sent?) := htracked.length_along operations
  have hbound : start.potential + cost (operations.filterMap Operation.sent?) ≤ bound :=
    Nat.add_le_add_right hstart _
  obtain ⟨⟨entities, hsettle⟩, hquiet⟩ := hreached.settle
  have hsettled : reached.settle.Tracked setting := by
    rw [hsettle]
    exact hreached.through _
  refine ⟨by omega, fun schedule => ?_, hreached.isIdle_iff, ⟨entities, hsettle⟩, hquiet,
    hsettled.isIdle_iff.mpr hquiet, fun haccepting => ?_⟩
  · obtain ⟨count, hcount, hempty⟩ := hreached.exists_empty schedule
    exact ⟨count, by omega, hempty⟩
  · obtain ⟨served, hshutdown⟩ := hreached.shutdown haccepting
    have hended : reached.shutdown.Tracked setting := by
      rw [hshutdown]
      exact hreached.through _
    have hnone := quiet_shutdown haccepting
    exact ⟨⟨served, hshutdown⟩, hnone, hended.isIdle_iff.mpr hnone⟩

/-- A run of the job of two vertices among events that are nobody's business. -/
def lineNoise : List Operation :=
  (lineRun 2).map Move.operation ++ [.send (.finished ⟨7⟩ .killed) (some ⟨0⟩),
    .send (.dag ⟨9⟩ .kill) (some ⟨0⟩), .send (.tasks ⟨5⟩ (.kill [⟨⟨0⟩, 0⟩])) (some ⟨0⟩)] ++
      lineLanes.map .deliver

/-- Its plan costs no more than 23 deliveries and the events from outside no more than six. -/
theorem draining_ends_line :
    ((line.equip (some { completes := true })).along served lineNoise).length ≤ 29 ∧
      ((line.equip (some { completes := true })).through lineNoise).settle.situation.Quiet ∧
      ((line.equip (some { completes := true })).through lineNoise).settle.dispatcher.isIdle = true := by
  have hends := draining_ends submit_line (some { completes := true }) lineNoise
  have hbound : (Plan.chain 2 1).deliveryBound +
      cost (lineNoise.filterMap Operation.sent?) = 29 := by decide
  exact ⟨hbound ▸ hends.1, hends.2.2.2.2.1, hends.2.2.2.2.2.1⟩

end Coordinator

end JobFlow
