import JobFlow.Proofs.Dispatcher.Serving

/-!
Warnings of a backlog. The depth of a lane is counted apart from its queue: it goes up with each event that
is accepted and down when one is taken out, before a handler is called that may itself dispatch to the lane.
Main statement: the depth is always the number of events that wait, so that a dispatch gives a warning
exactly when it makes a queue as long as the threshold, and nothing else gives one.
-/

namespace JobFlow

variable {σ : Type}

namespace Notice

def isBacklog : Notice → Bool
  | backlog _ _ => true
  | _ => false

end Notice

/-- The event of a dispatch with its answer. -/
def Observation.answer? : Observation σ → Option (Event × Except Refusal Unit)
  | .answered event answer => some (event, answer)
  | .called _ _ => none

/-- A dispatch, with the dispatcher that is asked for it. -/
structure Sending (σ : Type) where
  before : Dispatcher σ
  event : Event
  caller : Option HostId

namespace Sending

def after (sending : Sending σ) : Dispatcher σ := (sending.before.dispatch sending.event sending.caller).1

def answer (sending : Sending σ) : Except Refusal Unit :=
  (sending.before.dispatch sending.event sending.caller).2

def entity (sending : Sending σ) : Entity := sending.event.entity

/-- The warning that is due: one if the event was accepted and now as many wait for its entity as the limit
says. -/
def due (limit : Nat) (sending : Sending σ) : List Notice :=
  if sending.answer = .ok () ∧ (sending.after.queue sending.entity).length = limit
  then [.backlog sending.entity limit] else []

end Sending

/-- A handler that leaves it to the dispatcher to warn of a backlog, and appoints only such handlers. -/
def Action.Unassuming : Action σ → Prop
  | .done _ | .abort _ => True
  | .warn notice next => notice.isBacklog = false ∧ next.Unassuming
  | .dispatch _ next => ∀ answer, (next answer).Unassuming
  | .register _ handler next => (∀ state event, (handler state event).Unassuming) ∧ next.Unassuming
  | .inspect next => ∀ count, (next count).Unassuming

def Handler.Unassuming (handler : Handler σ) : Prop := ∀ state event, (handler state event).Unassuming

namespace Dispatcher

/-! ### The dispatches of a run -/

/-- The dispatches of a handler, each from the dispatcher that those before it have left. -/
def sendings (dispatcher : Dispatcher σ) (caller : Option HostId) : Action σ → List (Sending σ)
  | .done _ | .abort _ => []
  | .warn notice next => (dispatcher.note [notice]).sendings caller next
  | .dispatch event next =>
    let (after, answer) := dispatcher.dispatch event caller
    ⟨dispatcher, event, caller⟩ :: after.sendings caller (next answer)
  | .register kind handler next => (dispatcher.register kind handler).sendings caller next
  | .inspect next => dispatcher.sendings caller (next dispatcher.inFlight)

/-- The dispatches that the handler of an event makes. -/
def sendingsFor (dispatcher : Dispatcher σ) (caller : Option HostId) (event : Event) : List (Sending σ) :=
  match dispatcher.handlers event.kind with
  | some handler => dispatcher.sendings caller (handler dispatcher.state event)
  | none => []

/-- The dispatches of an activity, from outside or by the handler that is called. -/
def sent (dispatcher : Dispatcher σ) : Activity σ → List (Sending σ)
  | .dispatch event caller => [⟨dispatcher, event, caller⟩]
  | .deliver entity => (dispatcher.queue entity).head?.toList.flatMap
      ((dispatcher.popped entity).sendingsFor (dispatcher.host? entity))
  | .register _ _ | .refuse | .close _ | .lose _ => []

variable {dispatcher : Dispatcher σ} {limit : Nat}

theorem answers_eq (dispatcher : Dispatcher σ) (caller : Option HostId) (action : Action σ) :
    dispatcher.answers caller action =
      (dispatcher.sendings caller action).map (fun sending => .answered sending.event sending.answer) := by
  induction action generalizing dispatcher with
  | done state => rfl
  | abort state => rfl
  | warn notice next ih => exact ih (dispatcher.note [notice])
  | dispatch event next ih =>
      rw [answers_dispatch, ih]
      rfl
  | register kind handler next _ ih => exact ih (dispatcher.register kind handler)
  | inspect next ih => exact ih dispatcher.inFlight dispatcher

theorem answers_handling (dispatcher : Dispatcher σ) (caller : Option HostId) (event : Event) :
    (dispatcher.handling caller event).filterMap Observation.answer? =
      (dispatcher.sendingsFor caller event).map (fun sending => (sending.event, sending.answer)) := by
  rw [handling, sendingsFor]
  cases dispatcher.handlers event.kind with
  | none => rfl
  | some handler =>
      dsimp only
      rw [answers_eq, List.filterMap_cons, List.filterMap_map]
      exact congrFun List.filterMap_eq_map _

/-- The dispatches of an activity are those that its diary tells of. -/
theorem answers_observed (dispatcher : Dispatcher σ) (activity : Activity σ) :
    (dispatcher.observed activity).filterMap Observation.answer? =
      (dispatcher.sent activity).map (fun sending => (sending.event, sending.answer)) := by
  cases activity with
  | dispatch event caller => rfl
  | deliver entity =>
      rw [observed, sent]
      cases (dispatcher.queue entity).head? with
      | none => rfl
      | some event => simpa using (dispatcher.popped entity).answers_handling (dispatcher.host? entity) event
  | register | refuse | close | lose => rfl

theorem answers_along (dispatcher : Dispatcher σ) (activities : List (Activity σ)) :
    (dispatcher.along observed activities).filterMap Observation.answer? =
      (dispatcher.along sent activities).map (fun sending => (sending.event, sending.answer)) := by
  induction activities generalizing dispatcher with
  | nil => rfl
  | cons first rest ih => rw [along, along, List.filterMap_append, List.map_append, answers_observed, ih]

/-! ### Depths -/

/-- A dispatcher with a given threshold, in which the depth of each lane is the length of its queue. -/
structure Gauged (limit : Nat) (dispatcher : Dispatcher σ) : Prop where
  threshold : dispatcher.threshold = limit
  depth : ∀ entity lane, dispatcher.lane? entity = some lane → lane.depth = lane.queue.length

theorem gauged_create (threshold : Nat) (state : σ) : (create threshold state).Gauged (max 1 threshold) :=
  ⟨Nat.max_comm _ _, fun entity lane hlane => by cases hlane⟩

/-- Whatever leaves the lanes alone keeps their depths. -/
theorem Gauged.of_same (h : dispatcher.Gauged limit) {after : Dispatcher σ}
    (hthreshold : after.threshold = dispatcher.threshold) (hlanes : after.lanes = dispatcher.lanes) :
    after.Gauged limit := by
  refine ⟨hthreshold.trans h.threshold, fun entity lane hlane => ?_⟩
  rw [lane?, hlanes] at hlane
  exact h.depth entity lane hlane

/-- An event that is accepted makes its lane deeper by one, with a warning if the limit is reached. -/
theorem Gauged.accept (h : dispatcher.Gauged limit) {event : Event} {lane : Lane}
    (hlane : lane.depth = lane.queue.length) : (dispatcher.accept event lane).Gauged limit ∧
      ((dispatcher.accept event lane).queue event.entity).length = lane.queue.length + 1 ∧
      (dispatcher.accept event lane).log = dispatcher.log ++
        if ((dispatcher.accept event lane).queue event.entity).length = limit
        then [.backlog event.entity limit] else [] := by
  have hqueue : ((dispatcher.accept event lane).queue event.entity).length = lane.queue.length + 1 := by
    rw [queue, lane?_accept, if_pos rfl, Option.elim_some, Lane.push, List.length_append]
    rfl
  refine ⟨⟨h.threshold, fun entity other hother => ?_⟩, hqueue, ?_⟩
  · rw [lane?_accept] at hother
    split at hother
    · cases hother
      simp [Lane.push, hlane]
    · exact h.depth entity other hother
  · have hdepth : (lane.push event).depth = lane.queue.length + 1 := by rw [Lane.push, hlane]
    rw [hqueue, Dispatcher.accept]
    dsimp only
    rw [hdepth, h.threshold]
    split
    next heq => rw [heq]
    next => rfl

/-- The lane on which an event is accepted is that of its entity or a new one, so its depth is right. -/
theorem Gauged.depth_of_accepted (h : dispatcher.Gauged limit) {event : Event} {caller : Option HostId}
    {lane : Lane} (hlane : dispatcher.lane? event.entity = some lane ∨
      dispatcher.lane? event.entity = none ∧ ∃ host, caller = some host ∧ lane = { host := host }) :
    lane.depth = lane.queue.length := by
  rcases hlane with hfound | ⟨-, host, -, rfl⟩
  · exact h.depth _ _ hfound
  · rfl

theorem Gauged.dispatch (h : dispatcher.Gauged limit) (event : Event) (caller : Option HostId) :
    (dispatcher.dispatch event caller).1.Gauged limit := by
  rcases dispatcher.dispatch_eq event caller with
    ⟨lane, heq, -, -, hlane⟩ | ⟨host, -, -, hnone, heq⟩ | ⟨refusal, heq⟩
  · rw [heq]
    exact (h.accept (h.depth_of_accepted hlane)).1
  · rw [heq]
    refine ⟨h.threshold, fun entity lane hlane => ?_⟩
    rw [lane?, ← Lane.put_of_lookup_eq_none _ hnone, Lane.lookup_put] at hlane
    split at hlane
    · cases hlane
      rfl
    · exact h.depth entity lane hlane
  · rw [heq]
    exact h

theorem Gauged.perform (h : dispatcher.Gauged limit) (caller : Option HostId) (event : Event)
    (action : Action σ) : (dispatcher.perform caller event action).Gauged limit := by
  induction action generalizing dispatcher with
  | done state => exact h.of_same rfl rfl
  | abort state => exact h.of_same rfl rfl
  | warn notice next ih => exact ih (h.of_same rfl rfl)
  | dispatch sent next ih => exact ih _ (h.dispatch sent caller)
  | register kind handler next _ ih => exact ih (h.of_same rfl rfl)
  | inspect next ih => exact ih _ h

theorem Gauged.handle (h : dispatcher.Gauged limit) (caller : Option HostId) (event : Event) :
    (dispatcher.handle caller event).Gauged limit := by
  rw [Dispatcher.handle]
  split
  · exact h.perform caller event _
  · exact h

/-- When the handler of an event is called, the event is in neither the queue nor the depth of its lane. -/
theorem Gauged.popped (h : dispatcher.Gauged limit) {entity : Entity} {event : Event} {rest : List Event}
    (hqueue : dispatcher.queue entity = event :: rest) : (dispatcher.popped entity).Gauged limit := by
  obtain ⟨depth, host, hlane, hpopped⟩ := popped_eq hqueue
  rw [hpopped]
  refine ⟨h.threshold, fun other lane hfound => ?_⟩
  rw [lane?, Lane.lookup_put] at hfound
  split at hfound
  · cases hfound
    have hdepth := h.depth _ _ hlane
    simp only [List.length_cons] at hdepth
    exact hdepth ▸ Nat.add_sub_cancel _ 1
  · exact h.depth other lane hfound

/-- Every activity keeps the depths. -/
theorem Gauged.act (h : dispatcher.Gauged limit) (activity : Activity σ) :
    (dispatcher.act activity).Gauged limit := by
  cases activity with
  | register kind handler => exact h.of_same rfl rfl
  | dispatch event caller => exact h.dispatch event caller
  | deliver entity =>
      rw [Dispatcher.act]
      cases hqueue : dispatcher.queue entity with
      | nil => rwa [deliver_of_queue_eq_nil hqueue]
      | cons event rest =>
          rw [deliver_eq hqueue]
          exact ((h.popped hqueue).handle _ event).of_same rfl rfl
  | refuse => exact h.of_same rfl rfl
  | close entity =>
      rw [Dispatcher.act]
      split
      · refine ⟨h.threshold, fun other lane hlane => ?_⟩
        rw [lane?_closeLane] at hlane
        split at hlane
        · cases hlane
        · exact h.depth other lane hlane
      · exact h
  | lose host =>
      refine ⟨h.threshold, fun entity lane hlane => ?_⟩
      rw [Dispatcher.act, lane?_loseHost, Option.map_eq_some_iff] at hlane
      obtain ⟨before, hbefore, rfl⟩ := hlane
      rw [Lane.lose]
      split
      · rfl
      · exact h.depth entity before hbefore

theorem Gauged.through (h : dispatcher.Gauged limit) (activities : List (Activity σ)) :
    (dispatcher.through activities).Gauged limit := by
  induction activities generalizing dispatcher with
  | nil => exact h
  | cons first rest ih => exact ih (h.act first)

/-! ### One dispatch -/

theorem Gauged.sending_of_mem (h : dispatcher.Gauged limit) {caller : Option HostId} {action : Action σ}
    {sending : Sending σ} (hmem : sending ∈ dispatcher.sendings caller action) :
    sending.before.Gauged limit := by
  induction action generalizing dispatcher with
  | done state => cases hmem
  | abort state => cases hmem
  | warn notice next ih =>
      have hnoted : (dispatcher.note [notice]).Gauged limit := h.of_same rfl rfl
      exact ih hnoted hmem
  | dispatch event next ih =>
      rcases List.mem_cons.mp hmem with rfl | hlater
      · exact h
      · exact ih _ (h.dispatch event caller) hlater
  | register kind handler next _ ih =>
      have hregistered : (dispatcher.register kind handler).Gauged limit := h.of_same rfl rfl
      exact ih hregistered hmem
  | inspect next ih => exact ih _ h hmem

theorem Gauged.sent_of_mem (h : dispatcher.Gauged limit) {activity : Activity σ} {sending : Sending σ}
    (hmem : sending ∈ dispatcher.sent activity) : sending.before.Gauged limit := by
  cases activity with
  | dispatch event caller =>
      obtain rfl := List.mem_singleton.mp hmem
      exact h
  | deliver entity =>
      rw [sent] at hmem
      cases hqueue : dispatcher.queue entity with
      | nil => simp [hqueue] at hmem
      | cons event rest =>
          have hmade : sending ∈ (dispatcher.popped entity).sendingsFor (dispatcher.host? entity) event := by
            simpa [hqueue] using hmem
          rw [sendingsFor] at hmade
          split at hmade
          · exact (h.popped hqueue).sending_of_mem hmade
          · cases hmade
  | register | refuse | close | lose => cases hmem

end Dispatcher

namespace Sending

open Dispatcher

variable {sending : Sending σ} {limit : Nat}

theorem filter_due (limit : Nat) (sending : Sending σ) :
    (sending.due limit).filter Notice.isBacklog = sending.due limit := by
  rw [due]
  split <;> rfl

theorem due_ne_nil : sending.due limit ≠ [] ↔
    sending.answer = .ok () ∧ (sending.after.queue sending.entity).length = limit := by
  rw [due]
  split <;> simp_all

variable (hgauged : sending.before.Gauged limit)

include hgauged

/-- A dispatch puts the warning into the log that is due, and nothing else. -/
theorem log_after : sending.after.log = sending.before.log ++ sending.due limit := by
  rw [due, answer, after, entity]
  rcases sending.before.dispatch_eq sending.event sending.caller with
    ⟨lane, heq, -, -, hlane⟩ | ⟨host, -, -, -, heq⟩ | ⟨refusal, heq⟩
  · rw [heq]
    simpa using (hgauged.accept (hgauged.depth_of_accepted hlane)).2.2
  · rw [heq]
    simp
  · rw [heq]
    simp

omit hgauged in
/-- An event that is accepted makes the queue of its entity longer by one. -/
theorem length_after (haccepted : sending.answer = .ok ()) : (sending.after.queue sending.entity).length =
    (sending.before.queue sending.entity).length + 1 := by
  have hqueue := (sending.before.fills_dispatch sending.event sending.caller).queue sending.entity
  rw [answer] at haccepted
  rw [haccepted] at hqueue
  rw [after, hqueue, List.length_append]
  simp [Observation.accepted?, entity]

end Sending

namespace Dispatcher

variable {dispatcher : Dispatcher σ} {limit : Nat}

/-! ### The log of a run -/

/-- What one dispatcher has in its log beyond another are the warnings that are due for some dispatches, and
other notices. -/
def Warns (limit : Nat) (before : Dispatcher σ) (sendings : List (Sending σ))
    (after : Dispatcher σ) : Prop :=
  after.log.filter Notice.isBacklog =
    before.log.filter Notice.isBacklog ++ sendings.flatMap (Sending.due limit)

theorem Warns.trans {first second third : Dispatcher σ} {sendings later : List (Sending σ)}
    (h : first.Warns limit sendings second) (h' : second.Warns limit later third) :
    first.Warns limit (sendings ++ later) third := by
  rw [Warns, h', h, List.flatMap_append, List.append_assoc]

theorem warns_of_notices {after : Dispatcher σ} {notices : List Notice}
    (hlog : after.log = dispatcher.log ++ notices) (hother : ∀ notice ∈ notices, notice.isBacklog = false) :
    dispatcher.Warns limit [] after := by
  have hnone : notices.filter Notice.isBacklog = [] := by simpa using hother
  rw [Warns, hlog, List.filter_append, hnone]
  rfl

theorem warns_of_same {after : Dispatcher σ} (hlog : after.log = dispatcher.log) :
    dispatcher.Warns limit [] after :=
  warns_of_notices (hlog.trans (List.append_nil _).symm) (by simp)

theorem warns_register (dispatcher : Dispatcher σ) (kind : EventKind) (handler : Handler σ) :
    dispatcher.Warns limit [] (dispatcher.register kind handler) := by
  refine warns_of_notices rfl (fun notice hnotice => ?_)
  split at hnotice
  · rw [List.mem_singleton.mp hnotice]
    rfl
  · cases hnotice

theorem Gauged.warns_dispatch (h : dispatcher.Gauged limit) (event : Event) (caller : Option HostId) :
    dispatcher.Warns limit [⟨dispatcher, event, caller⟩] (dispatcher.dispatch event caller).1 := by
  let sending : Sending σ := ⟨dispatcher, event, caller⟩
  have hgauged : sending.before.Gauged limit := h
  have hlog : (dispatcher.dispatch event caller).1.log = dispatcher.log ++ sending.due limit :=
    Sending.log_after hgauged
  rw [Warns, hlog, List.filter_append, Sending.filter_due, List.flatMap_singleton]

/-- All handlers of a dispatcher are unassuming. -/
def Reticent (dispatcher : Dispatcher σ) : Prop :=
  ∀ kind handler, dispatcher.handlers kind = some handler → Handler.Unassuming handler

theorem Reticent.register (h : dispatcher.Reticent) (kind : EventKind) {handler : Handler σ}
    (hhandler : Handler.Unassuming handler) : (dispatcher.register kind handler).Reticent := by
  intro other found hfound
  rw [Dispatcher.register] at hfound
  dsimp only at hfound
  split at hfound
  · cases hfound
    exact hhandler
  · exact h other found hfound

theorem Reticent.dispatch (h : dispatcher.Reticent) (event : Event) (caller : Option HostId) :
    (dispatcher.dispatch event caller).1.Reticent := by
  intro kind handler hhandler
  rw [(dispatcher.dispatch_keeps event caller).1] at hhandler
  exact h kind handler hhandler

/-- The acts of an unassuming handler give the warnings that are due for its dispatches. -/
theorem Gauged.warns_perform (h : dispatcher.Gauged limit) (hreticent : dispatcher.Reticent)
    (caller : Option HostId) (event : Event) {action : Action σ} (haction : action.Unassuming) :
    (dispatcher.perform caller event action).Reticent ∧ dispatcher.Warns limit
      (dispatcher.sendings caller action) (dispatcher.perform caller event action) := by
  induction action generalizing dispatcher with
  | done state => exact ⟨hreticent, warns_of_same rfl⟩
  | abort state => exact ⟨hreticent, warns_of_notices rfl (by simp [Notice.isBacklog])⟩
  | warn notice next ih =>
      have hnoted : dispatcher.Warns limit [] (dispatcher.note [notice]) :=
        warns_of_notices rfl (by simpa using haction.1)
      have hgauged : (dispatcher.note [notice]).Gauged limit := h.of_same rfl rfl
      obtain ⟨hafter, hwarns⟩ := ih hgauged hreticent haction.2
      exact ⟨hafter, hnoted.trans hwarns⟩
  | dispatch sent next ih =>
      obtain ⟨hafter, hwarns⟩ := ih (dispatcher.dispatch sent caller).2 (h.dispatch sent caller)
        (hreticent.dispatch sent caller) (haction _)
      exact ⟨hafter, (h.warns_dispatch sent caller).trans hwarns⟩
  | register kind handler next _ ih =>
      have hgauged : (dispatcher.register kind handler).Gauged limit := h.of_same rfl rfl
      obtain ⟨hafter, hwarns⟩ := ih hgauged (hreticent.register kind haction.1) haction.2
      exact ⟨hafter, (dispatcher.warns_register kind handler).trans hwarns⟩
  | inspect next ih => exact ih _ h hreticent (haction _)

theorem Gauged.warns_handle (h : dispatcher.Gauged limit) (hreticent : dispatcher.Reticent)
    (caller : Option HostId) (event : Event) : (dispatcher.handle caller event).Reticent ∧
      dispatcher.Warns limit (dispatcher.sendingsFor caller event) (dispatcher.handle caller event) := by
  rw [Dispatcher.handle, sendingsFor]
  cases hhandler : dispatcher.handlers event.kind with
  | none => exact ⟨hreticent, warns_of_same rfl⟩
  | some handler => exact h.warns_perform hreticent caller event (hreticent _ handler hhandler _ _)

/-- An activity gives the warnings that are due for its dispatches. -/
theorem Gauged.warns_act (h : dispatcher.Gauged limit) (hreticent : dispatcher.Reticent)
    {activity : Activity σ}
    (hhandler : ∀ kind handler, activity = .register kind handler → Handler.Unassuming handler) :
    (dispatcher.act activity).Reticent ∧
      dispatcher.Warns limit (dispatcher.sent activity) (dispatcher.act activity) := by
  cases activity with
  | register kind handler =>
      exact ⟨hreticent.register kind (hhandler kind handler rfl), dispatcher.warns_register kind handler⟩
  | dispatch event caller => exact ⟨hreticent.dispatch event caller, h.warns_dispatch event caller⟩
  | deliver entity =>
      rw [Dispatcher.act, sent]
      cases hqueue : dispatcher.queue entity with
      | nil =>
          rw [deliver_of_queue_eq_nil hqueue]
          exact ⟨hreticent, warns_of_same rfl⟩
      | cons event rest =>
          have hpopped : (dispatcher.popped entity).Reticent := by
            intro kind handler hfound
            rw [handlers_popped] at hfound
            exact hreticent kind handler hfound
          obtain ⟨hafter, hwarns⟩ :=
            (h.popped hqueue).warns_handle hpopped (dispatcher.host? entity) event
          have htaken : dispatcher.Warns limit [] (dispatcher.popped entity) :=
            warns_of_same (log_popped dispatcher entity)
          rw [deliver_eq hqueue]
          refine ⟨hafter, ?_⟩
          -- The count of events in flight goes down at the end, which is no matter of the log.
          change dispatcher.Warns limit _ ((dispatcher.popped entity).handle (dispatcher.host? entity) event)
          simpa using htaken.trans hwarns
  | refuse => exact ⟨hreticent, warns_of_same rfl⟩
  | close entity =>
      rw [Dispatcher.act]
      split
      · refine ⟨hreticent, warns_of_notices rfl (fun notice hnotice => ?_)⟩
        split at hnotice
        · rw [List.mem_singleton.mp hnotice]
          rfl
        · cases hnotice
      · exact ⟨hreticent, warns_of_same rfl⟩
  | lose => exact ⟨hreticent, warns_of_same rfl⟩

theorem Gauged.warns_through (h : dispatcher.Gauged limit) (hreticent : dispatcher.Reticent)
    {activities : List (Activity σ)}
    (hhandlers : ∀ kind handler, .register kind handler ∈ activities → Handler.Unassuming handler) :
    dispatcher.Warns limit (dispatcher.along sent activities) (dispatcher.through activities) := by
  induction activities generalizing dispatcher with
  | nil => exact warns_of_same rfl
  | cons first rest ih =>
      obtain ⟨hafter, hwarns⟩ := h.warns_act hreticent
        (fun kind handler heq => hhandlers kind handler (heq ▸ List.mem_cons_self))
      exact hwarns.trans (ih (h.act first) hafter
        (fun kind handler hmem => hhandlers kind handler (List.mem_cons_of_mem _ hmem)))

/-- In every run a dispatch, of a handler or from outside, puts a warning into the log exactly if it is
accepted and then as many events wait for its entity as the threshold says, of which there is at least one.
Before it there was one less, so between two warnings for an entity its queue was shorter. Unless handlers
write such warnings themselves the log has no others. -/
theorem warns_of_backlog (threshold : Nat) (state : σ) (activities : List (Activity σ)) :
    let start := create threshold state
    let limit := max 1 threshold
    let sendings := start.along sent activities
    (start.diary activities).filterMap Observation.answer? =
      sendings.map (fun sending => (sending.event, sending.answer)) ∧
    (∀ sending ∈ sendings, sending.after.log = sending.before.log ++
      if sending.answer = .ok () ∧ (sending.after.queue sending.entity).length = limit
      then [.backlog sending.entity limit] else []) ∧
    sendings.Pairwise (fun first second => first.due limit ≠ [] → second.due limit ≠ [] →
      first.entity = second.entity → (first.after.queue first.entity).length = limit ∧
        (second.before.queue second.entity).length < limit) ∧
    ((∀ kind handler, .register kind handler ∈ activities → Handler.Unassuming handler) →
      (start.through activities).log.filter Notice.isBacklog = sendings.flatMap (·.due limit)) := by
  intro start limit sendings
  have hgauged : start.Gauged limit := gauged_create threshold state
  have hsendings : ∀ sending ∈ sendings, sending.before.Gauged limit := by
    intro sending hmem
    obtain ⟨before, activity, -, -, hsent⟩ := exists_of_mem_along hmem
    exact (hgauged.through before).sent_of_mem hsent
  refine ⟨?_, fun sending hmem => Sending.log_after (hsendings sending hmem), ?_, fun hhandlers => ?_⟩
  · rw [diary_eq]
    exact start.answers_along activities
  · refine List.pairwise_of_forall (fun first second hfirst hsecond _ => ?_)
    obtain ⟨-, hreached⟩ := Sending.due_ne_nil.mp hfirst
    obtain ⟨haccepted, hagain⟩ := Sending.due_ne_nil.mp hsecond
    refine ⟨hreached, ?_⟩
    rw [← hagain, Sending.length_after haccepted]
    exact Nat.lt_succ_self _
  · have hreticent : start.Reticent := fun kind handler hfound => by cases hfound
    exact hgauged.warns_through hreticent hhandlers

/-- A handler that dispatches its event once more. -/
def echoing : Handler Nat := fun count event => .dispatch event fun _ => .done (count + 1)

/-- A run in which a lane is filled from outside and then by the handler that takes from it. -/
def echoRun : List (Activity Nat) :=
  [.register .vertex echoing, .dispatch (.vertex ⟨0⟩ .init) (some ⟨0⟩),
    .dispatch (.vertex ⟨0⟩ .start) (some ⟨0⟩), .deliver (.vertex ⟨0⟩)]

/-- The dispatch with which two events wait in that run. -/
def filling : Sending Nat where
  before := (create 2 0).through (echoRun.take 2)
  event := .vertex ⟨0⟩ .start
  caller := some ⟨0⟩

/-- The dispatch of the handler, with which two events wait again. -/
def refilling : Sending Nat where
  before := ((create 2 0).through (echoRun.take 3)).popped (.vertex ⟨0⟩)
  event := .vertex ⟨0⟩ .init
  caller := some ⟨0⟩

/-- There are two warnings, one for each time that two events wait; in between there was only one. -/
theorem warns_of_backlog_echo :
    (∀ kind handler, .register kind handler ∈ echoRun → Handler.Unassuming handler) ∧
    filling ∈ (create 2 0).along sent echoRun ∧
    filling.after.log = filling.before.log ++ [.backlog (.vertex ⟨0⟩) 2] ∧
    (refilling.before.queue (.vertex ⟨0⟩)).length < 2 ∧
    ((create 2 0).through echoRun).log.filter Notice.isBacklog =
      [.backlog (.vertex ⟨0⟩) 2, .backlog (.vertex ⟨0⟩) 2] := by
  have hhandlers : ∀ kind handler, .register kind handler ∈ echoRun → Handler.Unassuming handler := by
    intro kind handler hmem
    obtain ⟨-, rfl⟩ : kind = .vertex ∧ handler = echoing := by simpa [echoRun] using hmem
    exact fun count event answer => trivial
  have hsent : (create 2 0).along sent echoRun =
      [⟨(create 2 0).register .vertex echoing, .vertex ⟨0⟩ .init, some ⟨0⟩⟩, filling, refilling] := rfl
  have hmem : filling ∈ (create 2 0).along sent echoRun := hsent ▸ .tail _ (.head _)
  obtain ⟨-, hlog, hpairs, hwarnings⟩ := warns_of_backlog 2 0 echoRun
  rw [hsent] at hpairs
  obtain ⟨-, hbelow⟩ := (List.pairwise_pair.mp hpairs.of_cons) (by decide) (by decide) rfl
  exact ⟨hhandlers, hmem, (hlog filling hmem).trans rfl, hbelow, (hwarnings hhandlers).trans rfl⟩

end Dispatcher

end JobFlow
