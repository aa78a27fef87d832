import JobFlow.Dispatcher
import JobFlow.Step

/-!
Delivery while every host is there and nothing was stopped. Every dispatch from a host is then accepted, so
that what a handler does comes down to a step: the state it leaves, the events it sends, which wait at the
ends of their lanes, and the notices it puts into the log.
-/

namespace JobFlow

variable {σ : Type}

/-- The acts of a handler that carries out a step. -/
def Action.ofStep (step : Step σ) : Action σ :=
  .warnAll step.notices (.dispatchAll step.outbound (.done step.machine))

namespace Lane

theorem put_of_lookup {entity : Entity} {lane : Lane} {lanes : List (Entity × Lane)}
    (hlane : lanes.lookup entity = some lane) : put entity lane lanes = lanes := by
  induction lanes with
  | nil => cases hlane
  | cons pair rest ih =>
      rw [lookup_cons] at hlane
      rw [put]
      by_cases heq : entity = pair.1
      · rw [if_pos heq] at hlane
        rw [if_pos heq.symm, heq, ← Option.some.inj hlane]
      · rw [if_neg heq] at hlane
        rw [if_neg (Ne.symm heq), ih hlane]

theorem put_of_lookup_eq_none {entity : Entity} (lane : Lane) {lanes : List (Entity × Lane)}
    (hnone : lanes.lookup entity = none) : put entity lane lanes = lanes ++ [(entity, lane)] := by
  induction lanes with
  | nil => rfl
  | cons pair rest ih =>
      rw [lookup_cons] at hnone
      rw [put]
      by_cases heq : entity = pair.1
      · rw [if_pos heq] at hnone
        cases hnone
      · rw [if_neg heq] at hnone
        rw [if_neg (Ne.symm heq), ih hnone, List.cons_append]

end Lane

namespace Dispatcher

/-- Nothing was stopped and every host is there. -/
structure Open (dispatcher : Dispatcher σ) : Prop where
  accepting : dispatcher.stopped = false
  gone : dispatcher.gone = []

/-- What a dispatcher has become by a step: the state of the step, its events behind those that
waited before, and no notices but its own and those of the lanes. -/
structure Absorbs (before : Dispatcher σ) (step : Step σ) (after : Dispatcher σ) : Prop where
  isOpen : after.Open
  handlers : after.handlers = before.handlers
  state : after.state = step.machine
  queue : ∀ entity, after.queue entity =
    before.queue entity ++ step.outbound.filter (·.entity = entity)
  log : ∀ notice ∈ after.log, notice ∈ before.log ∨ notice ∈ step.notices ∨
    ∃ entity depth, notice = .backlog entity depth

theorem lane?_accept (dispatcher : Dispatcher σ) (event : Event) (lane : Lane) (entity : Entity) :
    (dispatcher.accept event lane).lane? entity =
      if entity = event.entity then some (lane.push event) else dispatcher.lane? entity := by
  rw [lane?, accept]
  dsimp only
  split
  · exact Lane.lookup_putLast _ _ _ _
  · exact Lane.lookup_put _ _ _ _

theorem queue_accept (dispatcher : Dispatcher σ) (event : Event) (lane : Lane)
    (hlane : lane.queue = dispatcher.queue event.entity) (entity : Entity) :
    (dispatcher.accept event lane).queue entity =
      dispatcher.queue entity ++ [event].filter (·.entity = entity) := by
  rw [queue, lane?_accept]
  by_cases h : entity = event.entity
  · subst h
    simp [Lane.push, hlane]
  · have hne : event.entity ≠ entity := fun heq => h heq.symm
    simp [h, hne, queue]

theorem Open.accept {dispatcher : Dispatcher σ} (hopen : dispatcher.Open) (event : Event) (lane : Lane) :
    (dispatcher.accept event lane).Open := ⟨hopen.accepting, hopen.gone⟩

/-- A dispatch is accepted behind what waits for the entity. -/
theorem Open.dispatch {dispatcher : Dispatcher σ} (hopen : dispatcher.Open) (event : Event) (host : HostId) :
    ∃ lane, dispatcher.dispatch event (some host) = (dispatcher.accept event lane, .ok ()) ∧
      lane.queue = dispatcher.queue event.entity := by
  rw [Dispatcher.dispatch, hopen.accepting, hopen.gone, if_neg Bool.false_ne_true]
  cases hlane : dispatcher.lane? event.entity with
  | some lane => exact ⟨lane, by simp, by simp [Dispatcher.queue, hlane]⟩
  | none => exact ⟨{ host := host }, by simp, by simp [Dispatcher.queue, hlane]⟩

theorem mem_log_accept {dispatcher : Dispatcher σ} {event : Event} {lane : Lane} {notice : Notice}
    (h : notice ∈ (dispatcher.accept event lane).log) :
    notice ∈ dispatcher.log ∨ ∃ entity depth, notice = .backlog entity depth := by
  rcases List.mem_append.mp h with hold | hnew
  · exact Or.inl hold
  · split at hnew
    · exact Or.inr ⟨_, _, List.mem_singleton.mp hnew⟩
    · cases hnew

theorem absorbs_done {dispatcher : Dispatcher σ} (hopen : dispatcher.Open) (state : σ) :
    Absorbs dispatcher { machine := state } { dispatcher with state := state } where
  isOpen := ⟨hopen.accepting, hopen.gone⟩
  handlers := rfl
  state := rfl
  queue _ := (List.append_nil _).symm
  log _ h := Or.inl h

theorem Absorbs.after_dispatch {dispatcher after : Dispatcher σ} (hopen : dispatcher.Open)
    {event : Event} {host : HostId} {step : Step σ}
    (h : Absorbs (dispatcher.dispatch event (some host)).1 step after) :
    Absorbs dispatcher { step with outbound := event :: step.outbound } after := by
  obtain ⟨lane, heq, hlane⟩ := hopen.dispatch event host
  rw [heq] at h
  refine ⟨h.isOpen, h.handlers, h.state, ?_, ?_⟩
  · intro entity
    rw [h.queue, queue_accept _ _ _ hlane, List.append_assoc, ← List.filter_append]
    rfl
  · intro notice hnotice
    rcases h.log notice hnotice with hold | hnew
    · exact (mem_log_accept hold).imp_right Or.inr
    · exact Or.inr hnew

theorem Open.dispatch_fst {dispatcher : Dispatcher σ} (hopen : dispatcher.Open) (event : Event)
    (host : HostId) : (dispatcher.dispatch event (some host)).1.Open := by
  obtain ⟨lane, heq, -⟩ := hopen.dispatch event host
  rw [heq]
  exact hopen.accept event lane

theorem Open.dispatch_snd {dispatcher : Dispatcher σ} (hopen : dispatcher.Open) (event : Event)
    (host : HostId) : (dispatcher.dispatch event (some host)).2 = .ok () := by
  obtain ⟨lane, heq, -⟩ := hopen.dispatch event host
  rw [heq]

theorem Absorbs.after_note {dispatcher after : Dispatcher σ} {notice : Notice} {step : Step σ}
    (h : Absorbs (dispatcher.note [notice]) step after) :
    Absorbs dispatcher { step with notices := notice :: step.notices } after := by
  refine ⟨h.isOpen, h.handlers, h.state, h.queue, ?_⟩
  intro other hother
  rcases h.log other hother with hold | hnew | hlane
  · rcases List.mem_append.mp hold with hold | hnew
    · exact Or.inl hold
    · exact Or.inr (Or.inl (List.mem_cons.mpr (Or.inl (List.mem_singleton.mp hnew))))
  · exact Or.inr (Or.inl (List.mem_cons_of_mem _ hnew))
  · exact Or.inr (Or.inr hlane)

theorem Open.perform_dispatchAll {dispatcher : Dispatcher σ} (hopen : dispatcher.Open) (host : HostId)
    (event : Event) (sent : List Event) (state : σ) :
    Absorbs dispatcher { machine := state, outbound := sent }
      (dispatcher.perform (some host) event (.dispatchAll sent (.done state))) := by
  induction sent generalizing dispatcher with
  | nil => exact absorbs_done hopen state
  | cons first rest ih =>
      have h := ih (hopen.dispatch_fst first host)
      rw [Action.dispatchAll, List.foldr_cons, perform]
      simp only [hopen.dispatch_snd first host]
      exact h.after_dispatch hopen

/-- The acts of a step take place without a refusal. -/
theorem Open.perform_ofStep {dispatcher : Dispatcher σ} (hopen : dispatcher.Open) (host : HostId)
    (event : Event) (step : Step σ) :
    Absorbs dispatcher step (dispatcher.perform (some host) event (.ofStep step)) := by
  obtain ⟨machine, outbound, notices⟩ := step
  rw [Action.ofStep, Action.warnAll]
  dsimp only
  induction notices generalizing dispatcher with
  | nil => exact hopen.perform_dispatchAll host event outbound machine
  | cons first rest ih =>
      have hnoted : (dispatcher.note [first]).Open := ⟨hopen.accepting, hopen.gone⟩
      exact (ih hnoted).after_note

/-- A dispatcher whose lane for an entity has lost its first event. -/
def popped (dispatcher : Dispatcher σ) (entity : Entity) : Dispatcher σ :=
  match dispatcher.lane? entity with
  | some ⟨_ :: rest, depth, host⟩ =>
    { dispatcher with lanes := Lane.put entity ⟨rest, depth - 1, host⟩ dispatcher.lanes }
  | _ => dispatcher

theorem popped_eq {dispatcher : Dispatcher σ} {entity : Entity} {event : Event} {rest : List Event}
    (hqueue : dispatcher.queue entity = event :: rest) : ∃ depth host,
      dispatcher.lane? entity = some ⟨event :: rest, depth, host⟩ ∧ dispatcher.popped entity =
        { dispatcher with lanes := Lane.put entity ⟨rest, depth - 1, host⟩ dispatcher.lanes } := by
  unfold queue at hqueue
  cases hlane : dispatcher.lane? entity with
  | none => simp [hlane] at hqueue
  | some lane =>
      obtain ⟨waiting, depth, host⟩ := lane
      rw [hlane] at hqueue
      cases hqueue
      refine ⟨depth, host, rfl, ?_⟩
      rw [popped, hlane]

theorem exists_host {dispatcher : Dispatcher σ} {entity : Entity} {event : Event} {rest : List Event}
    (hqueue : dispatcher.queue entity = event :: rest) : ∃ host, dispatcher.host? entity = some host := by
  obtain ⟨depth, host, hlane, -⟩ := popped_eq hqueue
  exact ⟨host, by rw [host?, hlane, Option.map_some]⟩

@[simp] theorem handlers_popped (dispatcher : Dispatcher σ) (entity : Entity) :
    (dispatcher.popped entity).handlers = dispatcher.handlers := by
  unfold popped
  split <;> rfl

@[simp] theorem inFlight_popped (dispatcher : Dispatcher σ) (entity : Entity) :
    (dispatcher.popped entity).inFlight = dispatcher.inFlight := by
  unfold popped
  split <;> rfl

@[simp] theorem stopped_popped (dispatcher : Dispatcher σ) (entity : Entity) :
    (dispatcher.popped entity).stopped = dispatcher.stopped := by
  unfold popped
  split <;> rfl

@[simp] theorem gone_popped (dispatcher : Dispatcher σ) (entity : Entity) :
    (dispatcher.popped entity).gone = dispatcher.gone := by
  unfold popped
  split <;> rfl

@[simp] theorem state_popped (dispatcher : Dispatcher σ) (entity : Entity) :
    (dispatcher.popped entity).state = dispatcher.state := by
  unfold popped
  split <;> rfl

@[simp] theorem log_popped (dispatcher : Dispatcher σ) (entity : Entity) :
    (dispatcher.popped entity).log = dispatcher.log := by
  unfold popped
  split <;> rfl

theorem queue_popped {dispatcher : Dispatcher σ} {entity : Entity} {event : Event} {rest : List Event}
    (hqueue : dispatcher.queue entity = event :: rest) (other : Entity) :
    (dispatcher.popped entity).queue other = if other = entity then rest else dispatcher.queue other := by
  obtain ⟨depth, host, -, hpopped⟩ := popped_eq hqueue
  rw [hpopped, queue, lane?, Lane.lookup_put]
  split <;> rfl

@[simp] theorem host?_popped (dispatcher : Dispatcher σ) (entity other : Entity) :
    (dispatcher.popped entity).host? other = dispatcher.host? other := by
  unfold popped
  split
  next _ rest depth host hlane =>
    rw [host?, host?, lane?, Lane.lookup_put]
    split
    next heq => rw [heq, hlane, Option.map_some, Option.map_some]
    next => rfl
  next => rfl

/-- A delivery takes the first event out of its lane before the handler acts, on the host of the lane. -/
theorem deliver_eq {dispatcher : Dispatcher σ} {entity : Entity} {event : Event} {rest : List Event}
    (hqueue : dispatcher.queue entity = event :: rest) : dispatcher.deliver entity =
      { (dispatcher.popped entity).handle (dispatcher.host? entity) event with
        inFlight := ((dispatcher.popped entity).handle (dispatcher.host? entity) event).inFlight - 1 } := by
  obtain ⟨depth, host, hlane, hpopped⟩ := popped_eq hqueue
  rw [deliver, host?, hlane, hpopped, Option.map_some]

/-- While nothing was stopped, the dispatcher that handles the event is open too. -/
theorem Open.popped {dispatcher : Dispatcher σ} (hopen : dispatcher.Open) (entity : Entity) :
    (dispatcher.popped entity).Open :=
  ⟨(stopped_popped _ _).trans hopen.accepting, (gone_popped _ _).trans hopen.gone⟩

theorem deliver_of_queue_eq_nil {dispatcher : Dispatcher σ} {entity : Entity}
    (hqueue : dispatcher.queue entity = []) : dispatcher.deliver entity = dispatcher := by
  rw [Dispatcher.deliver]
  unfold Dispatcher.queue at hqueue
  cases hlane : dispatcher.lane? entity with
  | none => rfl
  | some lane =>
      obtain ⟨queue, depth, host⟩ := lane
      rw [hlane] at hqueue
      cases hqueue
      rfl

end Dispatcher

end JobFlow
