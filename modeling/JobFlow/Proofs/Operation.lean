import JobFlow.Proofs.Lanes
import JobFlow.Proofs.Promises

/-!
Runs of a coordinator that may be shut down on the way. A dispatch may now be refused, and so may what
a handler sends, so that less waits than the machines have sent. Main statement: what holds at the start,
survives every dispatch and every turn, and does not depend on anything that waits being there, holds in
the whole of such a run.
-/

namespace JobFlow

/-- What can be done to a coordinator: a dispatch, from a host or outside of any, a delivery of the first
event of a lane, and the two ends of a shutdown, which begins by refusing every dispatch and closes the
lanes when nothing waits on them any more. -/
inductive Operation where
  | send (event : Event) (caller : Option HostId)
  | deliver (entity : Entity)
  | refuse
  | close
  deriving DecidableEq

/-- A move is one of the operations. -/
def Move.operation : Move → Operation
  | .send event => .send event (some ⟨0⟩)
  | .deliver entity => .deliver entity

namespace Situation

/-- Some of what waited is lost, and nothing else has changed. -/
structure Fades (before after : Situation) : Prop where
  attempt : after.attempt = before.attempt
  queue : ∀ entity, (after.queue entity).Sublist (before.queue entity)

theorem Fades.waits {before after : Situation} (hfades : before.Fades after) {event : Event}
    (hwaits : after.Waits event) : before.Waits event := (hfades.queue _).mem hwaits

theorem Sound.fades {setting : Setting} {before after : Situation} (hsound : before.Sound setting)
    (hfades : before.Fades after) : after.Sound setting where
  wired := by
    rw [hfades.attempt]
    exact hsound.wired
  sorted entity event hevent := hsound.sorted entity event ((hfades.queue entity).mem hevent)

/-- A step that sends less leaves less waiting. -/
theorem fades_take (situation : Situation) (entity : Entity) (rest : List Event) (step : Step Attempt)
    {sent : List Event} (hsent : sent.Sublist step.outbound) :
    (situation.take entity rest step).Fades
      (situation.take entity rest { step with outbound := sent }) where
  attempt := rfl
  queue other := by
    rw [queue_take, queue_take]
    exact (List.Sublist.refl _).append (hsent.filter _)

end Situation

namespace Dispatcher

/-- The handlers are those of an attempt. Without a task layer there is none for its requests. -/
structure Staffed (dispatcher : Dispatcher Attempt) : Prop where
  onDag : dispatcher.handlers .dag = some Attempt.onDag
  onVertex : dispatcher.handlers .vertex = some Attempt.onVertex
  onFinished : dispatcher.handlers .finished = some Attempt.onFinished
  onTasks : dispatcher.handlers .tasks = some Attempt.onTasks ∨
    dispatcher.handlers .tasks = none ∧ dispatcher.state.layer = none

theorem Routed.staffed {dispatcher : Dispatcher Attempt} (hrouted : dispatcher.Routed) :
    dispatcher.Staffed :=
  ⟨hrouted.onDag, hrouted.onVertex, hrouted.onFinished, hrouted.onTasks⟩

/-- Handling an event is the reaction of the attempt to it, of which some may be refused. -/
theorem Staffed.carries_handle {dispatcher : Dispatcher Attempt} (hstaffed : dispatcher.Staffed)
    (caller : Option HostId) (event : Event) :
    dispatcher.Carries (dispatcher.state.react event) (dispatcher.handle caller event) := by
  rw [handle]
  cases event with
  | dag id signal =>
      rw [Event.kind, hstaffed.onDag]
      dsimp only
      rw [Attempt.onDag_eq]
      exact dispatcher.carries_ofStep _ _ _
  | vertex id signal =>
      rw [Event.kind, hstaffed.onVertex]
      dsimp only
      rw [Attempt.onVertex_eq]
      exact dispatcher.carries_ofStep _ _ _
  | finished dag phase =>
      rw [Event.kind, hstaffed.onFinished]
      exact dispatcher.carries_done _
  | tasks vertex request =>
      rcases hstaffed.onTasks with honTasks | ⟨hnone, hlayer⟩
      · rw [Event.kind, honTasks]
        dsimp only
        unfold Attempt.onTasks Attempt.react
        dsimp only
        cases dispatcher.state.layer with
        | none => exact dispatcher.carries_done _
        | some layer => exact dispatcher.carries_insist _ _ _ _
      · rw [Event.kind, hnone]
        dsimp only
        rw [Attempt.react, hlayer]
        exact dispatcher.carries_done dispatcher.state

theorem Staffed.of_handlers {before after : Dispatcher Attempt} (hstaffed : before.Staffed)
    (hhandlers : after.handlers = before.handlers)
    (hlayer : before.state.layer = none → after.state.layer = none) : after.Staffed where
  onDag := by rw [hhandlers, hstaffed.onDag]
  onVertex := by rw [hhandlers, hstaffed.onVertex]
  onFinished := by rw [hhandlers, hstaffed.onFinished]
  onTasks := by
    rw [hhandlers]
    exact hstaffed.onTasks.imp_right (And.imp_right hlayer)

/-- A delivery takes the first event out of its lane before the handler acts, whatever became of the
dispatcher. -/
theorem deliver_of_queue {σ : Type} {dispatcher : Dispatcher σ} {entity : Entity} {event : Event}
    {rest : List Event} (hqueue : dispatcher.queue entity = event :: rest) :
    ∃ (popped : Dispatcher σ) (caller : Option HostId), popped.handlers = dispatcher.handlers ∧
      popped.state = dispatcher.state ∧ popped.stopped = dispatcher.stopped ∧
      popped.inFlight = dispatcher.inFlight ∧
      (∀ other, popped.queue other = if other = entity then rest else dispatcher.queue other) ∧
      (dispatcher.Distinct → popped.Distinct) ∧
      (∀ cost, popped.load cost + cost event = dispatcher.load cost) ∧
      dispatcher.deliver entity =
        { popped.handle caller event with inFlight := (popped.handle caller event).inFlight - 1 } :=
  ⟨dispatcher.popped entity, dispatcher.host? entity, handlers_popped _ _, state_popped _ _,
    stopped_popped _ _, inFlight_popped _ _, queue_popped hqueue, distinct_popped hqueue, load_popped hqueue,
    deliver_eq hqueue⟩

end Dispatcher

namespace Coordinator

def operate (coordinator : Coordinator) : Operation → Coordinator
  | .send event caller =>
    { coordinator with dispatcher := (coordinator.dispatcher.dispatch event caller).1 }
  | .deliver entity => coordinator.deliver entity
  | .refuse => { coordinator with dispatcher := coordinator.dispatcher.refuse }
  | .close =>
    if coordinator.dispatcher.queued = 0 then
      { coordinator with dispatcher := coordinator.dispatcher.closeLanes }
    else coordinator

/-- The coordinator after the operations of a run. -/
def through (coordinator : Coordinator) (operations : List Operation) : Coordinator :=
  operations.foldl operate coordinator

/-- What is noted of each operation of a run, in order. -/
def along {β : Type} (note : Coordinator → Operation → List β) (coordinator : Coordinator) :
    List Operation → List β
  | [] => []
  | operation :: rest => note coordinator operation ++ (coordinator.operate operation).along note rest

/-- The event that an operation hands to a handler, if it is a delivery from a lane that is not empty. -/
def served (coordinator : Coordinator) : Operation → List Event
  | .deliver entity => (coordinator.dispatcher.queue entity).head?.toList
  | .send _ _ | .refuse | .close => []

/-- The events that a machine sends in an operation, accepted or not. -/
def emitted (coordinator : Coordinator) (operation : Operation) : List Event :=
  (coordinator.served operation).flatMap (fun event => (coordinator.attempt.react event).outbound)

theorem served_of_queue {coordinator : Coordinator} {entity : Entity} {event : Event}
    {rest : List Event} (hqueue : coordinator.dispatcher.queue entity = event :: rest) :
    coordinator.served (.deliver entity) = [event] := by
  rw [served, hqueue]
  rfl

theorem through_concat (coordinator : Coordinator) (operations : List Operation) (last : Operation) :
    coordinator.through (operations ++ [last]) = (coordinator.through operations).operate last := by
  rw [through, List.foldl_append]
  rfl

theorem through_append (coordinator : Coordinator) (operations later : List Operation) :
    coordinator.through (operations ++ later) = (coordinator.through operations).through later :=
  List.foldl_append

theorem along_concat {β : Type} (note : Coordinator → Operation → List β) (coordinator : Coordinator)
    (operations : List Operation) (last : Operation) :
    coordinator.along note (operations ++ [last]) =
      coordinator.along note operations ++ note (coordinator.through operations) last := by
  induction operations generalizing coordinator with
  | nil => simp [along, through]
  | cons first rest ih =>
      rw [List.cons_append, along, along, ih, List.append_assoc]
      rfl

/-- What is noted along a run is noted at one of its operations. -/
theorem exists_of_mem_along {β : Type} {note : Coordinator → Operation → List β}
    {coordinator : Coordinator} {operations : List Operation} {noted : β}
    (hnoted : noted ∈ coordinator.along note operations) :
    ∃ earlier operation later, operations = earlier ++ operation :: later ∧
      noted ∈ note (coordinator.through earlier) operation := by
  induction operations generalizing coordinator with
  | nil => cases hnoted
  | cons first rest ih =>
      rw [along, List.mem_append] at hnoted
      rcases hnoted with hfirst | hrest
      · exact ⟨[], first, rest, rfl, hfirst⟩
      · obtain ⟨earlier, operation, later, rfl, hlater⟩ := ih hrest
        exact ⟨first :: earlier, operation, later, rfl, hlater⟩

/-- A run of moves is a run of operations. -/
theorem after_eq_through (coordinator : Coordinator) (moves : List Move) :
    coordinator.after moves = coordinator.through (moves.map Move.operation) := by
  induction moves generalizing coordinator with
  | nil => rfl
  | cons first rest ih =>
      cases first with
      | send event => exact ih (coordinator.dispatch event).1
      | deliver entity => exact ih (coordinator.deliver entity)

/-! ### One operation -/

/-- A coordinator whose handlers are in place and whose machines have their books in order. -/
structure Manned (setting : Setting) (coordinator : Coordinator) : Prop where
  staffed : coordinator.dispatcher.Staffed
  sound : coordinator.situation.Sound setting

/-- A delivery from a lane that is not empty, of which all but some of what is sent is known. -/
structure Delivers (before : Coordinator) (event : Event) (rest sent : List Event)
    (after : Coordinator) : Prop where
  sublist : sent.Sublist (before.attempt.react event).outbound
  refused : before.dispatcher.stopped = true → sent = []
  situation : after.situation = before.situation.take event.entity rest
    { before.attempt.react event with outbound := sent }
  staffed : after.dispatcher.Staffed
  stopped : after.dispatcher.stopped = before.dispatcher.stopped
  distinct : before.dispatcher.Distinct → after.dispatcher.Distinct
  load : before.dispatcher.Distinct → ∀ cost,
    after.dispatcher.load cost + cost event = before.dispatcher.load cost + (sent.map cost).sum
  inFlight : after.dispatcher.inFlight = before.dispatcher.inFlight + sent.length - 1

theorem Delivers.queued {before after : Coordinator} {event : Event} {rest sent : List Event}
    (h : before.Delivers event rest sent after) (hdistinct : before.dispatcher.Distinct) :
    after.dispatcher.queued + 1 = before.dispatcher.queued + sent.length := by
  have hload := h.load hdistinct (fun _ => 1)
  rwa [← Dispatcher.queued_eq_load, ← Dispatcher.queued_eq_load, List.map_const', List.sum_replicate_nat,
    Nat.mul_one] at hload

variable {setting : Setting} {coordinator : Coordinator}

theorem exists_delivers (hstaffed : coordinator.dispatcher.Staffed) {event : Event} {rest : List Event}
    (hqueue : coordinator.dispatcher.queue event.entity = event :: rest) :
    ∃ sent, coordinator.Delivers event rest sent (coordinator.deliver event.entity) := by
  obtain ⟨popped, caller, hhandlers, hstate, hstopped, hinFlight, hothers, hdistinct, hload, hdeliver⟩ :=
    Dispatcher.deliver_of_queue hqueue
  have hpopped := hstaffed.of_handlers hhandlers (fun hlayer => by rw [hstate, hlayer])
  obtain ⟨hmachine, sent, hsent, hgains⟩ := hpopped.carries_handle caller event
  have hafter := hpopped.of_handlers hgains.handlers (fun hlayer => by
    rw [hmachine]
    exact Attempt.layer_react_of_none hlayer event)
  rw [hstate] at hmachine hsent
  refine ⟨sent, ?_⟩
  rw [Coordinator.deliver, hdeliver]
  refine ⟨hsent, fun h => hgains.refused (hstopped.trans h), ?_, ?_, hgains.stopped.trans hstopped,
    fun h => hgains.distinct (hdistinct h), ?_, ?_⟩
  · apply Situation.ext
    · exact hmachine
    · funext other
      have hother := hgains.queue other
      rw [hothers] at hother
      exact hother
  · exact ⟨hafter.onDag, hafter.onVertex, hafter.onFinished, hafter.onTasks⟩
  · intro h cost
    have hbefore := hload cost
    have hgained := hgains.load (hdistinct h) cost
    show (popped.handle caller event).load cost + cost event = _
    omega
  · show (popped.handle caller event).inFlight - 1 = _
    rw [hgains.inFlight, hinFlight]

/-- A delivery from a lane that is not empty, of whatever entity the lane is. -/
theorem Manned.delivers (hmanned : coordinator.Manned setting) {entity : Entity} {event : Event}
    {rest : List Event} (hqueue : coordinator.dispatcher.queue entity = event :: rest) :
    ∃ sent, entity = event.entity ∧
      coordinator.Delivers event rest sent (coordinator.deliver event.entity) := by
  have hentity := hmanned.sound.sorted entity event (by
    rw [show coordinator.situation.queue entity = _ from hqueue]
    exact List.mem_cons_self)
  subst hentity
  obtain ⟨sent, hdelivers⟩ := exists_delivers hmanned.staffed hqueue
  exact ⟨sent, rfl, hdelivers⟩

theorem Manned.deliver (hmanned : coordinator.Manned setting) (entity : Entity) :
    (coordinator.deliver entity).Manned setting := by
  cases hqueue : coordinator.dispatcher.queue entity with
  | nil => rwa [deliver_nil hqueue]
  | cons event rest =>
      obtain ⟨sent, rfl, hdelivers⟩ := hmanned.delivers hqueue
      refine ⟨hdelivers.staffed, ?_⟩
      rw [hdelivers.situation]
      have htake := hmanned.sound.take hqueue (hmanned.sound.wired.turn event)
      exact htake.fades (Situation.fades_take _ _ _ _ hdelivers.sublist)

/-- What a dispatch that may be refused makes of the situation. -/
theorem situation_send (coordinator : Coordinator) (event : Event) (caller : Option HostId) :
    (coordinator.operate (.send event caller)).situation = coordinator.situation.send [event] ∨
      (coordinator.operate (.send event caller)).situation = coordinator.situation := by
  obtain ⟨sent, hsent, hgains⟩ := coordinator.dispatcher.gains_dispatch event caller
  have hattempt := (coordinator.dispatcher.dispatch_keeps event caller).2.1
  have hsituation : (coordinator.operate (.send event caller)).situation =
      coordinator.situation.send sent := Situation.ext hattempt (funext hgains.queue)
  rw [hsituation]
  rcases List.sublist_cons_iff.mp hsent with hnone | ⟨rest, rfl, hrest⟩
  · right
    rw [List.sublist_nil.mp hnone]
    exact Situation.ext rfl (funext fun entity => List.append_nil _)
  · left
    rw [List.sublist_nil.mp hrest]

theorem handlers_send (coordinator : Coordinator) (event : Event) (caller : Option HostId) :
    (coordinator.operate (.send event caller)).dispatcher.handlers = coordinator.dispatcher.handlers ∧
      (coordinator.operate (.send event caller)).attempt = coordinator.attempt := by
  obtain ⟨hhandlers, hstate, -⟩ := coordinator.dispatcher.dispatch_keeps event caller
  exact ⟨hhandlers, hstate⟩

/-- When the lanes are closed, nothing is lost with them. -/
theorem situation_close (coordinator : Coordinator) :
    (coordinator.operate .close).situation = coordinator.situation := by
  rw [operate]
  split
  next hqueued =>
    have hquiet := quiet_of_queued hqueued
    obtain ⟨notices, heq⟩ := coordinator.dispatcher.exists_closeLanes
    rw [heq]
    apply Situation.ext
    · rfl
    · funext entity
      exact (hquiet entity).symm
  next => rfl

theorem Manned.operate (hmanned : coordinator.Manned setting) (operation : Operation) :
    (coordinator.operate operation).Manned setting := by
  cases operation with
  | send event caller =>
      obtain ⟨hhandlers, hattempt⟩ := coordinator.handlers_send event caller
      refine ⟨hmanned.staffed.of_handlers hhandlers (fun hlayer => ?_), ?_⟩
      · rw [← hlayer]
        exact congrArg Attempt.layer hattempt
      · rcases coordinator.situation_send event caller with heq | heq
        · rw [heq]
          exact hmanned.sound.send [event]
        · rw [heq]
          exact hmanned.sound
  | deliver entity => exact hmanned.deliver entity
  | refuse =>
      have hstaffed := hmanned.staffed
      exact ⟨⟨hstaffed.onDag, hstaffed.onVertex, hstaffed.onFinished, hstaffed.onTasks⟩, hmanned.sound⟩
  | close =>
      refine ⟨?_, ?_⟩
      · rw [Coordinator.operate]
        have hstaffed := hmanned.staffed
        split
        · obtain ⟨notices, heq⟩ := coordinator.dispatcher.exists_closeLanes
          rw [heq]
          exact ⟨hstaffed.onDag, hstaffed.onVertex, hstaffed.onFinished, hstaffed.onTasks⟩
        · exact hstaffed
      · rw [situation_close]
        exact hmanned.sound

theorem Manned.through (hmanned : coordinator.Manned setting) (operations : List Operation) :
    (coordinator.through operations).Manned setting := by
  induction operations generalizing coordinator with
  | nil => exact hmanned
  | cons first rest ih => exact ih (hmanned.operate first)

theorem Fresh.manned {layer : Option TaskLayer} (hfresh : coordinator.Fresh setting layer) :
    coordinator.Manned setting :=
  ⟨hfresh.routed.staffed, hfresh.sound []⟩

/-! ### Whole runs -/

/-- What holds at the start of a run, survives every dispatch and every turn, and stays true when some
of what waits is lost, holds in all of it. The motive sees the operations so far and the situation. -/
theorem Manned.induction (hmanned : coordinator.Manned setting)
    {motive : List Operation → Situation → Prop} (hstart : motive [] coordinator.situation)
    (hrest : ∀ earlier last, motive earlier (coordinator.through earlier).situation →
      motive (earlier ++ [last]) (coordinator.through earlier).situation)
    (hsend : ∀ earlier event caller, motive earlier (coordinator.through earlier).situation →
      motive (earlier ++ [.send event caller])
        ((coordinator.through earlier).situation.send [event]))
    (htake : ∀ earlier event rest step, (coordinator.through earlier).situation.Sound setting →
      (coordinator.through earlier).situation.queue event.entity = event :: rest →
      (coordinator.through earlier).situation.attempt.Turn event step →
      (coordinator.through (earlier ++ [.deliver event.entity])).attempt = step.machine →
      motive earlier (coordinator.through earlier).situation →
        motive (earlier ++ [.deliver event.entity])
          ((coordinator.through earlier).situation.take event.entity rest step))
    (hfade : ∀ operations before after, before.Fades after → motive operations before →
      motive operations after)
    (operations : List Operation) : motive operations (coordinator.through operations).situation := by
  induction operations using List.reverseRecOn with
  | nil => exact hstart
  | append_singleton earlier last ih =>
      have hearlier := hmanned.through earlier
      rw [through_concat]
      cases last with
      | send event caller =>
          rcases (coordinator.through earlier).situation_send event caller with heq | heq
          · rw [heq]
            exact hsend earlier event caller ih
          · rw [heq]
            exact hrest earlier _ ih
      | deliver entity =>
          cases hqueue : (coordinator.through earlier).dispatcher.queue entity with
          | nil =>
              rw [Coordinator.operate, deliver_nil hqueue]
              exact hrest earlier _ ih
          | cons event rest =>
              obtain ⟨sent, rfl, hdelivers⟩ := hearlier.delivers hqueue
              rw [Coordinator.operate, hdelivers.situation]
              refine hfade _ _ _ (Situation.fades_take _ _ _ _ hdelivers.sublist) ?_
              refine htake earlier event rest _ hearlier.sound hqueue
                (hearlier.sound.wired.turn event) ?_ ih
              rw [through_concat]
              exact congrArg Situation.attempt hdelivers.situation
      | refuse => exact hrest earlier .refuse ih
      | close =>
          rw [situation_close]
          exact hrest earlier .close ih

/-- What holds of the situation at the start of a run, survives every turn and every allowed dispatch, and
stays true when some of what waits is lost, holds as long as nothing else is dispatched. -/
theorem Manned.invariant (hmanned : coordinator.Manned setting) (allowed : Event → Prop)
    {motive : Situation → Prop} (hstart : motive coordinator.situation)
    (hsend : ∀ situation event, allowed event → motive situation → motive (situation.send [event]))
    (htake : ∀ situation event rest step, situation.Sound setting →
      situation.queue event.entity = event :: rest → situation.attempt.Turn event step →
      motive situation → motive (situation.take event.entity rest step))
    (hfade : ∀ before after, before.Fades after → motive before → motive after)
    {operations : List Operation}
    (hallowed : ∀ event caller, .send event caller ∈ operations → allowed event) :
    motive (coordinator.through operations).situation := by
  refine hmanned.induction (motive := fun operations situation =>
    (∀ event caller, .send event caller ∈ operations → allowed event) → motive situation)
    ?_ ?_ ?_ ?_ ?_ operations hallowed
  · exact fun _ => hstart
  · intro earlier last hearlier hall
    exact hearlier (fun event caller hmem => hall event caller (List.mem_append_left _ hmem))
  · intro earlier event caller hearlier hall
    apply hsend
    · exact hall event caller (List.mem_append_right _ List.mem_cons_self)
    · exact hearlier (fun other later hmem => hall other later (List.mem_append_left _ hmem))
  · intro earlier event rest step hsound hqueue hturn _ hearlier hall
    apply htake _ event rest step hsound hqueue hturn
    exact hearlier (fun other caller hmem => hall other caller (List.mem_append_left _ hmem))
  · exact fun operations before after hfades hbefore hall => hfade before after hfades (hbefore hall)

/-- Every vertex goes forward in the whole of a run. -/
theorem Manned.follows (hmanned : coordinator.Manned setting) {id : VertexId} {before : Vertex}
    (hbefore : coordinator.attempt.vertex? id = some before) (operations : List Operation) :
    ∃ after, (coordinator.through operations).attempt.vertex? id = some after ∧
      before.Follows after := by
  refine hmanned.invariant (fun _ => True) (motive := fun situation => ∃ after,
    situation.attempt.vertex? id = some after ∧ before.Follows after) ?_ ?_ ?_ ?_ (fun _ _ _ => trivial)
  · exact ⟨before, hbefore, Vertex.Follows.refl before⟩
  · exact fun situation event _ hearlier => hearlier
  · rintro situation event rest step - - hturn ⟨middle, hmiddle, hfollows⟩
    obtain ⟨after, hafter, hlater⟩ := hturn.follows hmiddle
    exact ⟨after, hafter, hfollows.trans hlater⟩
  · intro before after hfades hearlier
    rw [hfades.attempt]
    exact hearlier

/-- What was sent in an operation was sent in the turn of an event that was first in its lane. -/
theorem Manned.of_emitted (hmanned : coordinator.Manned setting) {operation : Operation}
    {sent : Event} (hsent : sent ∈ coordinator.emitted operation) :
    ∃ event, coordinator.attempt.Turn event (coordinator.attempt.react event) ∧
      sent ∈ (coordinator.attempt.react event).outbound ∧
      (coordinator.operate operation).attempt = (coordinator.attempt.react event).machine := by
  cases operation with
  | send | refuse | close => cases hsent
  | deliver entity =>
      cases hqueue : coordinator.dispatcher.queue entity with
      | nil =>
          rw [emitted, served, hqueue] at hsent
          cases hsent
      | cons event rest =>
          rw [emitted, served_of_queue hqueue, List.flatMap_singleton] at hsent
          obtain ⟨taken, rfl, hdelivers⟩ := hmanned.delivers hqueue
          refine ⟨event, hmanned.sound.wired.turn event, hsent, ?_⟩
          exact congrArg Situation.attempt hdelivers.situation

end Coordinator

end JobFlow
