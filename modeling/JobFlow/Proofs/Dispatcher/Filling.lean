import JobFlow.Proofs.Dispatcher.Watching
import JobFlow.Proofs.Operation

/-!
What a handler may do to the dispatcher that calls it. It puts on the lanes what it dispatches, unless that
is refused, and does no more to them. Main statement: to handle an event is to call the handler of its
kind, if there is one, and of the dispatches of that handler none is refused while every host is there and
all are refused once a shutdown has begun.
-/

namespace JobFlow

variable {σ : Type}

namespace Dispatcher

variable {dispatcher : Dispatcher σ}

/-! ### One dispatch -/

theorem host?_eq_none {entity : Entity} :
    dispatcher.host? entity = none ↔ dispatcher.lane? entity = none := Option.map_eq_none_iff

theorem queue_of_host?_eq_none {entity : Entity} (hnone : dispatcher.host? entity = none) :
    dispatcher.queue entity = [] := by
  rw [queue, host?_eq_none.mp hnone, Option.elim_none]

theorem isDead_iff {entity : Entity} : dispatcher.isDead entity = true ↔
    ∃ host ∈ dispatcher.gone, dispatcher.host? entity = some host := by
  rw [isDead]
  cases dispatcher.host? entity with
  | none => simp
  | some host => simp

theorem dispatch_of_stopped (hstopped : dispatcher.stopped = true) (event : Event)
    (caller : Option HostId) : dispatcher.dispatch event caller = (dispatcher, .error .stopped) := by
  rw [dispatch, if_pos hstopped]

/-- An event is served on the host of its lane, or else on that of the caller; it is accepted if there is
one and it did not go away. -/
theorem answer_eq (dispatcher : Dispatcher σ) (event : Event) (caller : Option HostId) :
    (dispatcher.dispatch event caller).2 = if dispatcher.stopped = true then .error .stopped
      else match (dispatcher.host? event.entity).or caller with
        | some host => if host ∈ dispatcher.gone then .error .stopped else .ok ()
        | none => .error .noRuntime := by
  rw [dispatch, host?]
  cases dispatcher.stopped with
  | true => rfl
  | false => cases dispatcher.lane? event.entity <;> cases caller <;> grind

/-- A dispatch leaves alone the hosts of the lanes that there are, and may open the lane of its event. -/
theorem host?_dispatch (dispatcher : Dispatcher σ) (event : Event) (caller : Option HostId)
    (entity : Entity) : (dispatcher.dispatch event caller).1.host? entity =
      if dispatcher.stopped = false ∧ entity = event.entity then (dispatcher.host? entity).or caller
      else dispatcher.host? entity := by
  have hput : ∀ lane lanes, (Lane.put event.entity lane lanes).lookup entity = _ :=
    Lane.lookup_put event.entity entity
  have haccept := dispatcher.lane?_accept event
  rw [dispatch]
  cases hstopped : dispatcher.stopped with
  | true => simp
  | false =>
      by_cases hentity : entity = event.entity
      · subst hentity
        cases hlane : dispatcher.lane? event.entity <;> cases caller <;>
          grind [host?, lane?, Lane.push]
      · cases hlane : dispatcher.lane? event.entity <;> cases caller <;>
          grind [host?, lane?, Lane.push]

/-- While every host is there, only a shutdown refuses a dispatch from one of them. -/
theorem answer_of_gone (hgone : dispatcher.gone = []) (event : Event) (caller : Option HostId) :
    (dispatcher.dispatch event caller).2 = if dispatcher.stopped = true then .error .stopped
      else if dispatcher.lane? event.entity = none ∧ caller = none then .error .noRuntime else .ok () := by
  rw [answer_eq, hgone, host?]
  cases dispatcher.lane? event.entity <;> cases caller <;> simp

/-- A dead lane refuses every event. -/
theorem dispatch_of_isDead {event : Event} (hdead : dispatcher.isDead event.entity = true)
    (caller : Option HostId) : dispatcher.dispatch event caller = (dispatcher, .error .stopped) := by
  obtain ⟨host, hgone, hhost⟩ := isDead_iff.mp hdead
  have hanswer := dispatcher.answer_eq event caller
  rw [hhost, Option.some_or] at hanswer
  rcases dispatcher.dispatch_eq event caller with ⟨lane, heq, -⟩ | ⟨_, -, -, hnone, -⟩ | ⟨refusal, heq⟩
  · simp [heq, hgone] at hanswer
  · rw [host?_eq_none.mpr hnone] at hhost
    cases hhost
  · rw [heq] at hanswer ⊢
    simp only [hgone, if_true, ite_self] at hanswer
    rw [hanswer]

/-! ### What a handler may do -/

/-- A dispatcher after it has accepted some events from a caller, in order, and done no more to its lanes,
whatever has become of its handlers. -/
structure Fills (before : Dispatcher σ) (caller : Option HostId) (sent : List Event)
    (after : Dispatcher σ) : Prop where
  stopped : after.stopped = before.stopped
  gone : after.gone = before.gone
  refused : before.stopped = true → sent = []
  queue : ∀ entity, after.queue entity = before.queue entity ++ sent.filter (·.entity = entity)
  host : ∀ entity, after.host? entity = before.host? entity ∨
    before.host? entity = none ∧ after.host? entity = caller
  unknown : ∀ entity, after.host? entity = none → sent.filter (·.entity = entity) = []
  known : before.gone = [] → ∀ entity, before.host? entity = none →
    sent.filter (·.entity = entity) = [] → after.host? entity = none
  dead : ∀ entity, after.isDead entity = true → sent.filter (·.entity = entity) = []
  distinct : before.Distinct → after.Distinct
  queued : before.Distinct → after.queued = before.queued + sent.length
  inFlight : after.inFlight = before.inFlight + sent.length
  log : before.log <+: after.log

variable {caller : Option HostId}

/-- A dispatcher with the same lanes has accepted nothing. -/
theorem fills_nil {before after : Dispatcher σ} (hstopped : after.stopped = before.stopped)
    (hgone : after.gone = before.gone) (hlanes : after.lanes = before.lanes)
    (hinFlight : after.inFlight = before.inFlight) (hlog : before.log <+: after.log) :
    before.Fills caller [] after := by
  have hlane : ∀ entity, after.lane? entity = before.lane? entity := by
    intro entity
    rw [lane?, lane?, hlanes]
  have hhost : ∀ entity, after.host? entity = before.host? entity := by
    intro entity
    rw [host?, host?, hlane]
  constructor
  · exact hstopped
  · exact hgone
  · exact fun _ => rfl
  · intro entity
    rw [List.filter_nil, List.append_nil, Dispatcher.queue, Dispatcher.queue, hlane]
  · exact fun entity => Or.inl (hhost entity)
  · exact fun _ _ => rfl
  · exact fun _ entity hnone _ => (hhost entity).trans hnone
  · exact fun _ _ => rfl
  · intro hdistinct
    rw [Distinct, hlanes]
    exact hdistinct
  · intro _
    rw [Dispatcher.queued, Dispatcher.queued, hlanes]
    rfl
  · exact hinFlight
  · exact hlog

theorem fills_note (dispatcher : Dispatcher σ) (caller : Option HostId) (notices : List Notice) :
    dispatcher.Fills caller [] (dispatcher.note notices) :=
  fills_nil rfl rfl rfl rfl (List.prefix_append _ _)

theorem fills_register (dispatcher : Dispatcher σ) (caller : Option HostId) (kind : EventKind)
    (handler : Handler σ) : dispatcher.Fills caller [] (dispatcher.register kind handler) :=
  fills_nil rfl rfl rfl rfl (List.prefix_append _ _)

namespace Fills

variable {before after : Dispatcher σ} {sent : List Event} (h : before.Fills caller sent after)

include h

theorem host_of_ne_none {entity : Entity} (hsome : before.host? entity ≠ none) :
    after.host? entity = before.host? entity :=
  (h.host entity).resolve_right (fun hnew => hsome hnew.1)

theorem isDead_of_isDead {entity : Entity} (hdead : before.isDead entity = true) :
    after.isDead entity = true := by
  obtain ⟨host, hgone, hhost⟩ := isDead_iff.mp hdead
  have hsome : before.host? entity ≠ none := by
    rw [hhost]
    exact Option.some_ne_none host
  have hsame := h.host_of_ne_none hsome
  exact isDead_iff.mpr ⟨host, h.gone ▸ hgone, hsame.trans hhost⟩

/-- Nothing waits on a dead lane, also if it was opened dead. -/
theorem queue_of_isDead (hempty : ∀ entity, before.isDead entity = true → before.queue entity = [])
    {entity : Entity} (hdead : after.isDead entity = true) : after.queue entity = [] := by
  rw [h.queue, h.dead entity hdead, List.append_nil]
  cases hhost : before.host? entity with
  | none => exact queue_of_host?_eq_none hhost
  | some host =>
      refine hempty entity ?_
      rw [isDead, h.gone, h.host_of_ne_none (by rw [hhost]; exact Option.some_ne_none host)] at hdead
      exact hdead

theorem trans {last : Dispatcher σ} {later : List Event} (h' : after.Fills caller later last) :
    before.Fills caller (sent ++ later) last where
  stopped := h'.stopped.trans h.stopped
  gone := h'.gone.trans h.gone
  refused hstopped := by rw [h.refused hstopped, h'.refused (h.stopped.trans hstopped), List.append_nil]
  queue entity := by rw [h'.queue, h.queue, List.filter_append, List.append_assoc]
  host entity := by
    rcases h'.host entity with hlast | ⟨hafter, hlast⟩
    · rw [hlast]
      exact h.host entity
    · rcases h.host entity with hsame | ⟨hbefore, -⟩
      · exact Or.inr ⟨hsame.symm.trans hafter, hlast⟩
      · exact Or.inr ⟨hbefore, hlast⟩
  unknown entity hnone := by
    have hafter : after.host? entity = none := by
      rcases h'.host entity with hlast | ⟨hafter, -⟩
      · exact hlast.symm.trans hnone
      · exact hafter
    rw [List.filter_append, h.unknown entity hafter, h'.unknown entity hnone, List.append_nil]
  known hgone entity hbefore hnone := by
    rw [List.filter_append, List.append_eq_nil_iff] at hnone
    exact h'.known (h.gone.trans hgone) entity (h.known hgone entity hbefore hnone.1) hnone.2
  dead entity hdead := by
    have hsent : sent.filter (·.entity = entity) = [] := by
      cases hhost : after.host? entity with
      | none => exact h.unknown entity hhost
      | some host =>
          refine h.dead entity ?_
          rw [isDead, h'.gone, h'.host_of_ne_none (by rw [hhost]; exact Option.some_ne_none host)] at hdead
          exact hdead
    rw [List.filter_append, hsent, h'.dead entity hdead, List.append_nil]
  distinct hdistinct := h'.distinct (h.distinct hdistinct)
  queued hdistinct := by
    rw [h'.queued (h.distinct hdistinct), h.queued hdistinct, List.length_append]
    omega
  inFlight := by
    rw [h'.inFlight, h.inFlight, List.length_append]
    omega
  log := h.log.trans h'.log

end Fills

theorem fills_accept {event : Event} {lane : Lane} (hstopped : dispatcher.stopped = false)
    (hserved : lane.host ∉ dispatcher.gone) (hlane : dispatcher.lane? event.entity = some lane ∨
      dispatcher.lane? event.entity = none ∧ ∃ host, caller = some host ∧ lane = { host := host }) :
    dispatcher.Fills caller [event] (dispatcher.accept event lane) := by
  obtain ⟨hqueue, hfound⟩ := queue_eq_of_accepted hlane
  have hgains : dispatcher.Gains [event] (dispatcher.accept event lane) := gains_accept hstopped hqueue hfound
  have hhost : ∀ entity, (dispatcher.accept event lane).host? entity =
      if entity = event.entity then some lane.host else dispatcher.host? entity := by
    intro entity
    rw [host?, lane?_accept]
    split <;> rfl
  have hother : ∀ entity, entity ≠ event.entity → [event].filter (·.entity = entity) = [] := by
    intro entity hentity
    simpa using Ne.symm hentity
  constructor
  · exact hgains.stopped
  · rfl
  · exact hgains.refused
  · exact hgains.queue
  · intro entity
    rw [hhost]
    by_cases hentity : entity = event.entity
    · subst hentity
      rw [if_pos rfl]
      rcases hlane with h | ⟨h, host, rfl, rfl⟩
      · exact Or.inl (by rw [host?, h, Option.map_some])
      · exact Or.inr ⟨host?_eq_none.mpr h, rfl⟩
    · exact Or.inl (if_neg hentity)
  · intro entity hnone
    refine hother entity (fun hentity => ?_)
    rw [hhost, if_pos hentity] at hnone
    cases hnone
  · intro _ entity hnone hsent
    rw [hhost, if_neg, hnone]
    rintro rfl
    simp at hsent
  · intro entity hdead
    refine hother entity (fun hentity => ?_)
    obtain ⟨host, hgone, hfound⟩ := isDead_iff.mp hdead
    rw [hhost, if_pos hentity] at hfound
    cases hfound
    exact hserved hgone
  · exact hgains.distinct
  · exact hgains.queued
  · exact hgains.inFlight
  · exact List.prefix_append _ _

/-- A lane that is opened on a host that is gone takes nothing. -/
theorem fills_open {entity : Entity} {host : HostId} (hgone : host ∈ dispatcher.gone)
    (hnone : dispatcher.lane? entity = none) : dispatcher.Fills (some host) []
      { dispatcher with lanes := dispatcher.lanes ++ [(entity, { host := host })] } := by
  have hempty : ({ host := host } : Lane).queue = [] := rfl
  have hgains := gains_open hempty hnone
  constructor
  · rfl
  · rfl
  · exact hgains.refused
  · exact hgains.queue
  · intro other
    rw [host?, lane?, ← Lane.put_of_lookup_eq_none _ hnone, Lane.lookup_put]
    by_cases hother : other = entity
    · exact Or.inr ⟨host?_eq_none.mpr (hother ▸ hnone), by rw [if_pos hother, Option.map_some]⟩
    · rw [if_neg hother]
      exact Or.inl rfl
  · exact fun _ _ => rfl
  · intro hnobody
    rw [hnobody] at hgone
    cases hgone
  · exact fun _ _ => rfl
  · exact hgains.distinct
  · exact hgains.queued
  · exact hgains.inFlight
  · exact List.prefix_rfl

theorem fills_dispatch (dispatcher : Dispatcher σ) (event : Event) (caller : Option HostId) :
    dispatcher.Fills caller (([.answered event (dispatcher.dispatch event caller).2] :
      List (Observation σ)).filterMap Observation.accepted?) (dispatcher.dispatch event caller).1 := by
  rcases dispatcher.dispatch_eq event caller with
    ⟨lane, heq, hstopped, hserved, hlane⟩ | ⟨host, hgone, rfl, hnone, heq⟩ | ⟨refusal, heq⟩
  · rw [heq]
    exact fills_accept hstopped hserved hlane
  · rw [heq]
    exact fills_open hgone hnone
  · rw [heq]
    exact fills_nil rfl rfl rfl rfl List.prefix_rfl

/-- Nothing waits or is in flight that was not before when a dispatch is refused. It leaves the dispatcher
as it was, unless its caller is on a host that is gone. -/
theorem dispatch_of_refused {event : Event} {refusal : Refusal}
    (hrefused : (dispatcher.dispatch event caller).2 = .error refusal) :
    (∀ entity, (dispatcher.dispatch event caller).1.queue entity = dispatcher.queue entity) ∧
      (dispatcher.dispatch event caller).1.inFlight = dispatcher.inFlight ∧
      ((∀ host ∈ caller, host ∉ dispatcher.gone) → (dispatcher.dispatch event caller).1 = dispatcher) := by
  have hfills := dispatcher.fills_dispatch event caller
  rw [hrefused] at hfills
  refine ⟨fun entity => (hfills.queue entity).trans (List.append_nil _), hfills.inFlight, fun hcaller => ?_⟩
  rcases dispatcher.dispatch_eq event caller with ⟨lane, heq, -⟩ | ⟨host, hgone, rfl, -⟩ | ⟨_, heq⟩
  · rw [heq] at hrefused
    cases hrefused
  · exact absurd hgone (hcaller host rfl)
  · rw [heq]

/-- The acts of a handler put on the lanes what they dispatch, unless it is refused, and nothing else. -/
theorem fills_perform (dispatcher : Dispatcher σ) (caller : Option HostId) (event : Event)
    (action : Action σ) :
    dispatcher.Fills caller ((dispatcher.answers caller action).filterMap Observation.accepted?)
      (dispatcher.perform caller event action) := by
  induction action generalizing dispatcher with
  | done state => exact fills_nil rfl rfl rfl rfl List.prefix_rfl
  | abort state => exact fills_nil rfl rfl rfl rfl (List.prefix_append _ _)
  | warn notice next ih =>
      exact (dispatcher.fills_note caller [notice]).trans (ih (dispatcher.note [notice]))
  | dispatch sent next ih =>
      rw [answers_dispatch, List.filterMap_append]
      exact (dispatcher.fills_dispatch sent caller).trans
        (ih (dispatcher.dispatch sent caller).2 (dispatcher.dispatch sent caller).1)
  | register kind handler next _ ih =>
      exact (dispatcher.fills_register caller kind handler).trans (ih (dispatcher.register kind handler))
  | inspect next ih => exact ih dispatcher.inFlight dispatcher

/-- A handler is refused nothing while every host is there and no shutdown has begun, and everything once
one has. -/
def Replies (dispatcher : Dispatcher σ) (caller : Option HostId) (observation : Observation σ) : Prop :=
  ∃ event answer, observation = .answered event answer ∧
    (dispatcher.stopped = true → answer = .error .stopped) ∧
    (dispatcher.stopped = false → dispatcher.gone = [] → caller ≠ none → answer = .ok ())

theorem Fills.replies {before after : Dispatcher σ} {sent : List Event}
    (h : before.Fills caller sent after) {observation : Observation σ}
    (hreplies : after.Replies caller observation) : before.Replies caller observation := by
  obtain ⟨event, answer, heq, hstopped, haccepted⟩ := hreplies
  exact ⟨event, answer, heq, fun hbefore => hstopped (h.stopped.trans hbefore),
    fun hbefore hgone => haccepted (h.stopped.trans hbefore) (h.gone.trans hgone)⟩

theorem replies_dispatch (dispatcher : Dispatcher σ) (caller : Option HostId) (event : Event) :
    dispatcher.Replies caller (.answered event (dispatcher.dispatch event caller).2) := by
  refine ⟨event, _, rfl, fun hstopped => ?_, fun hstopped hgone hcaller => ?_⟩
  · rw [dispatch_of_stopped hstopped]
  · rw [answer_of_gone hgone, hstopped]
    simp [hcaller]

theorem replies_of_mem_answers {action : Action σ} {observation : Observation σ}
    (hmem : observation ∈ dispatcher.answers caller action) : dispatcher.Replies caller observation := by
  induction action generalizing dispatcher with
  | done state => cases hmem
  | abort state => cases hmem
  | warn notice next ih => exact (dispatcher.fills_note caller [notice]).replies (ih hmem)
  | dispatch sent next ih =>
      rw [answers_dispatch] at hmem
      rcases List.mem_append.mp hmem with hfirst | hlater
      · rw [List.mem_singleton.mp hfirst]
        exact dispatcher.replies_dispatch caller sent
      · exact (dispatcher.fills_dispatch sent caller).replies (ih _ hlater)
  | register kind handler next _ ih => exact (dispatcher.fills_register caller kind handler).replies (ih hmem)
  | inspect next ih => exact ih _ hmem

theorem fills_handle (dispatcher : Dispatcher σ) (caller : Option HostId) (event : Event) :
    dispatcher.Fills caller ((dispatcher.handling caller event).filterMap Observation.accepted?)
      (dispatcher.handle caller event) := by
  rw [handle, handling]
  cases dispatcher.handlers event.kind with
  | none => exact fills_nil rfl rfl rfl rfl List.prefix_rfl
  | some handler => exact dispatcher.fills_perform caller event (handler dispatcher.state event)

/-- An event is handed once to the handler of its kind, if there is one. -/
theorem calls_handling (dispatcher : Dispatcher σ) (caller : Option HostId) (event : Event) :
    (dispatcher.handling caller event).filterMap Observation.call? =
      (dispatcher.handlers event.kind).toList.map (·, event) := by
  rw [handling]
  cases dispatcher.handlers event.kind with
  | none => rfl
  | some handler =>
      have hanswers : (dispatcher.answers caller (handler dispatcher.state event)).filterMap
          Observation.call? = [] := by
        rw [List.filterMap_eq_nil_iff]
        intro observation hmem
        obtain ⟨_, _, rfl, -⟩ := replies_of_mem_answers hmem
        rfl
      dsimp only
      rw [List.filterMap_cons, hanswers]
      rfl

theorem replies_of_mem_handling {event : Event} {observation : Observation σ}
    (hmem : observation ∈ dispatcher.handling caller event) (hanswer : observation.call? = none) :
    dispatcher.Replies caller observation := by
  rw [handling] at hmem
  cases hhandler : dispatcher.handlers event.kind with
  | none => simp [hhandler] at hmem
  | some handler =>
      rw [hhandler] at hmem
      rcases List.mem_cons.mp hmem with rfl | hlater
      · cases hanswer
      · exact replies_of_mem_answers hlater

/-- The handler that is called in a delivery is refused nothing while every host is there and no shutdown
has begun, and everything once one has. -/
theorem replies_of_mem_deliver {entity : Entity} {observation : Observation σ}
    (hmem : observation ∈ dispatcher.observed (.deliver entity)) (hanswer : observation.call? = none) :
    ∃ host, dispatcher.Replies (some host) observation := by
  rw [observed] at hmem
  cases hqueue : dispatcher.queue entity with
  | nil => simp [hqueue] at hmem
  | cons event rest =>
      obtain ⟨host, hhost⟩ := exists_host hqueue
      rw [hqueue, hhost] at hmem
      have hhandling : observation ∈ (dispatcher.popped entity).handling (some host) event := by
        simpa using hmem
      obtain ⟨sent, answer, rfl, hstopped, haccepted⟩ := replies_of_mem_handling hhandling hanswer
      rw [stopped_popped] at hstopped haccepted
      rw [gone_popped] at haccepted
      exact ⟨host, sent, answer, rfl, hstopped, haccepted⟩

/-! ### Shutdowns and losses -/

/-- Once a shutdown has begun every dispatch is refused. -/
theorem answer_of_stopped (hstopped : dispatcher.stopped = true) {activity : Activity σ} {event : Event}
    {answer : Except Refusal Unit} (hmem : .answered event answer ∈ dispatcher.observed activity) :
    answer = .error .stopped := by
  cases activity with
  | dispatch sent caller =>
      rw [observed, dispatch_of_stopped hstopped, List.mem_singleton] at hmem
      cases hmem
      rfl
  | deliver entity =>
      obtain ⟨_, _, _, heq, hrefused, -⟩ := replies_of_mem_deliver hmem rfl
      cases heq
      exact hrefused hstopped
  | register | refuse | close | lose => cases hmem

theorem deliver_keeps (dispatcher : Dispatcher σ) (entity : Entity) :
    (dispatcher.deliver entity).stopped = dispatcher.stopped ∧
      (dispatcher.deliver entity).gone = dispatcher.gone := by
  cases hqueue : dispatcher.queue entity with
  | nil =>
      rw [deliver_of_queue_eq_nil hqueue]
      exact ⟨rfl, rfl⟩
  | cons event rest =>
      have hfills := (dispatcher.popped entity).fills_handle (dispatcher.host? entity) event
      rw [deliver_eq hqueue]
      exact ⟨hfills.stopped.trans (stopped_popped _ _), hfills.gone.trans (gone_popped _ _)⟩

/-- A shutdown that has begun is not taken back, and only a shutdown stops a dispatcher. -/
theorem stopped_act (dispatcher : Dispatcher σ) (activity : Activity σ) :
    (dispatcher.act activity).stopped = true ↔ dispatcher.stopped = true ∨ activity = .refuse := by
  cases activity with
  | register kind handler => simp [act, Dispatcher.register]
  | dispatch event caller => simp [act, (dispatcher.fills_dispatch event caller).stopped]
  | deliver entity => simp [act, (dispatcher.deliver_keeps entity).1]
  | refuse => simp [act, Dispatcher.refuse]
  | close entity =>
      rw [act]
      split <;> simp [closeLane]
  | lose host => simp [act, loseHost]

/-- A host that went away does not come back. -/
theorem mem_gone_act (dispatcher : Dispatcher σ) (activity : Activity σ) (host : HostId) :
    host ∈ (dispatcher.act activity).gone ↔ host ∈ dispatcher.gone ∨ activity = .lose host := by
  cases activity with
  | register kind handler => simp [act, Dispatcher.register]
  | dispatch event caller => simp [act, (dispatcher.fills_dispatch event caller).gone]
  | deliver entity => simp [act, (dispatcher.deliver_keeps entity).2]
  | refuse => simp [act, Dispatcher.refuse]
  | close entity =>
      rw [act]
      split <;> simp [closeLane]
  | lose lost =>
      show host ∈ lost :: dispatcher.gone ↔ _
      rw [List.mem_cons, or_comm, Activity.lose.injEq, eq_comm]

theorem stopped_through (dispatcher : Dispatcher σ) (activities : List (Activity σ)) :
    (dispatcher.through activities).stopped = true ↔ dispatcher.stopped = true ∨ .refuse ∈ activities := by
  induction activities generalizing dispatcher with
  | nil => simp [through]
  | cons first rest ih =>
      rw [through_cons, ih, stopped_act, List.mem_cons, or_assoc, @eq_comm _ first]

theorem mem_gone_through (dispatcher : Dispatcher σ) (activities : List (Activity σ)) (host : HostId) :
    host ∈ (dispatcher.through activities).gone ↔ host ∈ dispatcher.gone ∨ .lose host ∈ activities := by
  induction activities generalizing dispatcher with
  | nil => simp [through]
  | cons first rest ih =>
      rw [through_cons, ih, mem_gone_act, List.mem_cons, or_assoc, @eq_comm _ first]

end Dispatcher

end JobFlow
