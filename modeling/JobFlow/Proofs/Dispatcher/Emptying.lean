import JobFlow.Proofs.Dispatcher.Ledger

/-!
Dispatchers that are being emptied. Once everything is refused nothing is added to what waits, so that with
every event that is served or lost there is one less. Main statement: a stopped dispatcher serves or loses as
many events as wait, in whatever order its lanes are served, and to stop a dispatcher is to refuse everything,
to serve lanes until nothing waits, and to close them.
-/

namespace JobFlow

variable {σ : Type}

namespace Dispatcher

variable {dispatcher : Dispatcher σ}

theorem served_of_queue {entity : Entity} {event : Event} {rest : List Event}
    (hqueue : dispatcher.queue entity = event :: rest) :
    dispatcher.served (.deliver entity) = [(event, dispatcher.handlers event.kind)] := by
  rw [served, hqueue]
  rfl

/-! ### One lane for each entity -/

theorem distinct_act (hdistinct : dispatcher.Distinct) (activity : Activity σ) :
    (dispatcher.act activity).Distinct := by
  cases activity with
  | register kind handler => exact hdistinct
  | dispatch event caller => exact (dispatcher.fills_dispatch event caller).distinct hdistinct
  | deliver entity =>
      rw [act]
      cases hqueue : dispatcher.queue entity with
      | nil =>
          rw [deliver_of_queue_eq_nil hqueue]
          exact hdistinct
      | cons event rest =>
          have hfills := (dispatcher.popped entity).fills_handle (dispatcher.host? entity) event
          rw [deliver_eq hqueue]
          exact hfills.distinct (distinct_popped hqueue hdistinct)
  | refuse => exact hdistinct
  | close entity =>
      rw [act]
      split
      · exact distinct_closeLane hdistinct entity
      · exact hdistinct
  | lose host => exact distinct_loseHost hdistinct host

/-! ### Nothing is added -/

/-- Once everything is refused, an activity takes away from what waits what it serves and what it loses. -/
theorem queued_act (hstopped : dispatcher.stopped = true) (hdistinct : dispatcher.Distinct)
    (activity : Activity σ) : (dispatcher.act activity).queued + (dispatcher.served activity).length +
      (dispatcher.lost activity).length = dispatcher.queued := by
  cases activity with
  | register kind handler => rfl
  | dispatch event caller =>
      rw [act, dispatch_of_stopped hstopped]
      rfl
  | deliver entity =>
      rw [act]
      cases hqueue : dispatcher.queue entity with
      | nil =>
          rw [deliver_of_queue_eq_nil hqueue, served, hqueue]
          rfl
      | cons event rest =>
          have hfills := (dispatcher.popped entity).fills_handle (dispatcher.host? entity) event
          have hsent := hfills.refused ((stopped_popped _ _).trans hstopped)
          have hqueued := hfills.queued (distinct_popped hqueue hdistinct)
          rw [hsent, List.length_nil, Nat.add_zero] at hqueued
          rw [deliver_eq hqueue, served_of_queue hqueue, List.length_singleton, lost, List.length_nil]
          show ((dispatcher.popped entity).handle (dispatcher.host? entity) event).queued + 1 + 0 =
            dispatcher.queued
          rw [hqueued, queued_popped hqueue]
  | refuse => rfl
  | close entity =>
      rw [act]
      split
      next hclose => exact queued_closeLane hdistinct hclose.2
      next => rfl
  | lose host => exact dispatcher.queued_loseHost host

theorem queued_through (hstopped : dispatcher.stopped = true) (hdistinct : dispatcher.Distinct)
    (activities : List (Activity σ)) : (dispatcher.through activities).queued +
      (dispatcher.along served activities).length + (dispatcher.along lost activities).length =
        dispatcher.queued := by
  induction activities generalizing dispatcher with
  | nil => rfl
  | cons first rest ih =>
      have hfirst := queued_act hstopped hdistinct first
      have hrest := ih ((dispatcher.stopped_act first).mpr (Or.inl hstopped)) (distinct_act hdistinct first)
      rw [through_cons, along, along, List.length_append, List.length_append]
      omega

theorem lost_deliveries (dispatcher : Dispatcher σ) (entities : List Entity) :
    dispatcher.along lost (entities.map .deliver) = [] := by
  induction entities generalizing dispatcher with
  | nil => rfl
  | cons first rest ih => exact ih (dispatcher.act (.deliver first))

/-! ### Draining and stopping -/

/-- To drain is to serve lanes that are not empty, up to the limit or until nothing waits. -/
theorem exists_drain (hdistinct : dispatcher.Distinct) (limit : Nat) : ∃ entities : List Entity,
    dispatcher.drain limit = dispatcher.through (entities.map .deliver) ∧
    ((dispatcher.along served (entities.map .deliver)).length = limit ∨
      (dispatcher.through (entities.map .deliver)).queued = 0) := by
  induction limit generalizing dispatcher with
  | zero => exact ⟨[], rfl, Or.inl rfl⟩
  | succ limit ih =>
      rcases nextReady?_cases hdistinct with ⟨hnext, hqueued⟩ | ⟨entity, event, rest, hnext, hqueue⟩
      · refine ⟨[], ?_, Or.inr hqueued⟩
        rw [drain, hnext]
        rfl
      · obtain ⟨entities, hdrain, hend⟩ := ih (distinct_act hdistinct (.deliver entity))
        refine ⟨entity :: entities, ?_, hend.imp_left (fun hlength => ?_)⟩
        · rw [drain, hnext]
          exact hdrain
        · rw [List.map_cons, along, served_of_queue hqueue, List.length_append, hlength,
            List.length_singleton, Nat.add_comm]

/-! ### Closing the lanes -/

theorem foldl_closeLane_eq_through (hstopped : dispatcher.stopped = true)
    (hempty : ∀ entity, dispatcher.queue entity = []) (entities : List Entity) :
    entities.foldl closeLane dispatcher = dispatcher.through (entities.map .close) := by
  induction entities generalizing dispatcher with
  | nil => rfl
  | cons first rest ih =>
      have hclose : dispatcher.act (.close first) = dispatcher.closeLane first :=
        if_pos ⟨hstopped, hempty first⟩
      rw [List.foldl_cons, List.map_cons, through_cons, hclose]
      apply ih
      · exact hstopped
      · exact fun entity => (queue_closeLane (hempty first) entity).trans (hempty entity)

/-- When nothing waits any more, all lanes can be closed one by one. -/
theorem closeLanes_eq_through (hstopped : dispatcher.stopped = true) (hqueued : dispatcher.queued = 0) :
    dispatcher.closeLanes = dispatcher.through ((dispatcher.lanes.map (·.1)).map .close) :=
  foldl_closeLane_eq_through hstopped (queue_eq_nil_of_queued hqueued) _

theorem log_foldl_closeLane {entities : List Entity} (hnodup : entities.Nodup) :
    (entities.foldl closeLane dispatcher).log =
      dispatcher.log ++ (entities.filter dispatcher.isDead).map .laneDied := by
  induction entities generalizing dispatcher with
  | nil => exact (List.append_nil _).symm
  | cons first rest ih =>
      obtain ⟨hfirst, hrest⟩ := List.nodup_cons.mp hnodup
      have hothers : rest.filter (dispatcher.closeLane first).isDead = rest.filter dispatcher.isDead := by
        refine List.filter_congr (fun entity hentity => ?_)
        have hne : entity ≠ first := fun heq => hfirst (heq ▸ hentity)
        rw [isDead, isDead, host?_closeLane, if_neg hne]
        rfl
      rw [List.foldl_cons, ih hrest, hothers, closeLane]
      cases hdead : dispatcher.isDead first with
      | true => rw [List.filter_cons_of_pos hdead]; simp
      | false => rw [List.filter_cons_of_neg (by simp [hdead])]; simp

theorem lanes_closeLanes (dispatcher : Dispatcher σ) : dispatcher.closeLanes.lanes = [] := by
  obtain ⟨notices, heq⟩ := dispatcher.exists_closeLanes
  rw [heq]

/-! ### Stopping -/

/-- The acts of a handler that is refused everything leave the lanes alone. -/
theorem lanes_perform_of_stopped (hstopped : dispatcher.stopped = true) (caller : Option HostId)
    (event : Event) (action : Action σ) :
    (dispatcher.perform caller event action).lanes = dispatcher.lanes := by
  induction action generalizing dispatcher with
  | done state => rfl
  | abort state => rfl
  | warn notice next ih =>
      have hnoted : (dispatcher.note [notice]).stopped = true := hstopped
      exact ih hnoted
  | dispatch sent next ih =>
      rw [perform, dispatch_of_stopped hstopped]
      exact ih _ hstopped
  | register kind handler next _ ih =>
      have hregistered : (dispatcher.register kind handler).stopped = true := hstopped
      exact ih hregistered
  | inspect next ih => exact ih _ hstopped

theorem lanes_handle_of_stopped (hstopped : dispatcher.stopped = true) (caller : Option HostId)
    (event : Event) : (dispatcher.handle caller event).lanes = dispatcher.lanes := by
  rw [handle]
  split
  · exact lanes_perform_of_stopped hstopped caller event _
  · rfl

/-- In a shutdown no lane is added, and with which host each is served stays the same. -/
theorem deliver_of_stopped (hstopped : dispatcher.stopped = true) (entity : Entity) :
    (dispatcher.deliver entity).lanes.map (·.1) = dispatcher.lanes.map (·.1) ∧
      ∀ other, (dispatcher.deliver entity).host? other = dispatcher.host? other := by
  cases hqueue : dispatcher.queue entity with
  | nil =>
      rw [deliver_of_queue_eq_nil hqueue]
      exact ⟨rfl, fun _ => rfl⟩
  | cons event rest =>
      obtain ⟨depth, host, hlane, hpopped⟩ := popped_eq hqueue
      have hlanes := lanes_handle_of_stopped ((stopped_popped dispatcher entity).trans hstopped)
        (dispatcher.host? entity) event
      rw [deliver_eq hqueue]
      refine ⟨?_, fun other => ?_⟩
      · show ((dispatcher.popped entity).handle _ event).lanes.map _ = _
        rw [hlanes, hpopped]
        exact Lane.entities_put hlane
      · show (((dispatcher.popped entity).handle _ event).lanes.lookup other).map _ = _
        rw [hlanes]
        exact dispatcher.host?_popped entity other

theorem deliveries_of_stopped (hstopped : dispatcher.stopped = true) (entities : List Entity) :
    (dispatcher.through (entities.map .deliver)).lanes.map (·.1) = dispatcher.lanes.map (·.1) ∧
      ∀ other, (dispatcher.through (entities.map .deliver)).isDead other = dispatcher.isDead other := by
  induction entities generalizing dispatcher with
  | nil => exact ⟨rfl, fun _ => rfl⟩
  | cons first rest ih =>
      obtain ⟨hstill, hgone⟩ := dispatcher.deliver_keeps first
      obtain ⟨hlanes, hhost⟩ := deliver_of_stopped hstopped first
      obtain ⟨hothers, hdead⟩ := ih (hstill.trans hstopped)
      refine ⟨hothers.trans hlanes, fun other => (hdead other).trans ?_⟩
      rw [isDead, isDead, hhost, hgone]

/-- Once everything is refused, the lanes can be emptied and closed. -/
theorem exists_end (hstopped : dispatcher.stopped = true) (hdistinct : dispatcher.Distinct) :
    ∃ entities : List Entity,
      dispatcher.drain dispatcher.queued = dispatcher.through (entities.map .deliver) ∧
      (dispatcher.through (entities.map .deliver)).queued = 0 ∧
      dispatcher.through (entities.map .deliver ++ (dispatcher.lanes.map (·.1)).map .close) =
        (dispatcher.through (entities.map .deliver)).closeLanes := by
  obtain ⟨entities, hdrain, hend⟩ := exists_drain hdistinct dispatcher.queued
  have hcount := queued_through hstopped hdistinct (entities.map .deliver)
  rw [lost_deliveries, List.length_nil, Nat.add_zero] at hcount
  have hqueued : (dispatcher.through (entities.map .deliver)).queued = 0 := by
    rcases hend with hlength | hqueued
    · omega
    · exact hqueued
  have hstill : (dispatcher.through (entities.map .deliver)).stopped = true :=
    (stopped_through _ _).mpr (Or.inl hstopped)
  refine ⟨entities, hdrain, hqueued, ?_⟩
  rw [through_append, closeLanes_eq_through hstill hqueued, (deliveries_of_stopped hstopped entities).1]

/-- To stop is to refuse everything, to serve lanes until nothing waits, and to close them, with a notice for
each that is dead. -/
theorem exists_stop (hstopped : dispatcher.stopped = false) (hdistinct : dispatcher.Distinct) :
    ∃ entities : List Entity, (dispatcher.refuse.through (entities.map .deliver)).queued = 0 ∧
      dispatcher.stop = (dispatcher.refuse.through (entities.map .deliver)).closeLanes ∧
      dispatcher.stop = dispatcher.refuse.through
        (entities.map .deliver ++ (dispatcher.lanes.map (·.1)).map .close) ∧
      dispatcher.stop.log = (dispatcher.refuse.through (entities.map .deliver)).log ++
        ((dispatcher.lanes.map (·.1)).filter dispatcher.isDead).map .laneDied := by
  have hrefused : dispatcher.refuse.Distinct := hdistinct
  have hrefuse : dispatcher.refuse.stopped = true := rfl
  obtain ⟨entities, hdrain, hqueued, hclose⟩ := exists_end hrefuse hrefused
  have hstop : dispatcher.stop = (dispatcher.refuse.through (entities.map .deliver)).closeLanes := by
    rw [stop, hstopped, if_neg Bool.false_ne_true]
    exact congrArg closeLanes hdrain
  obtain ⟨hlanes, hdead⟩ := deliveries_of_stopped hrefuse entities
  refine ⟨entities, hqueued, hstop, hstop.trans hclose.symm, ?_⟩
  have hentities : ((dispatcher.refuse.through (entities.map .deliver)).lanes.map (·.1)).Nodup :=
    hlanes ▸ hrefused
  rw [hstop, closeLanes, log_foldl_closeLane hentities, hlanes, funext hdead]
  rfl

end Dispatcher

end JobFlow
