import JobFlow.Proofs.Dispatcher.Separation

/-!
Foreign traffic. Events may be dispatched that are addressed to another job, or to a vertex that the job of
a coordinator does not have; they get lanes like any others, count as in flight and are handed to the same
handlers, which have only a warning for them. Main statement: a run from which they are erased takes place
as it did with them.
-/

namespace JobFlow

/-- Whether events for an entity can concern a job with so many vertices. Other jobs, and vertices beyond
those of the job, are foreign to it. -/
def Entity.isOwn (id : DagId) (count : Nat) : Entity → Bool
  | .dag other => other = id
  | .vertex place => place.index < count
  | .tasks _ | .owner _ => true

namespace Attempt

theorem discreet_insist (attempt : Attempt) (reports : List Event) : (attempt.insist reports).Discreet := by
  induction reports with
  | nil => trivial
  | cons first rest ih =>
      intro answer
      cases answer with
      | ok => exact ih
      | error refusal => trivial

/-- Nothing that is handled changes the identifier of a job or the number of its vertices. -/
theorem react_keeps (attempt : Attempt) (event : Event) :
    (attempt.react event).machine.id = attempt.id ∧
      (attempt.react event).machine.vertices.length = attempt.vertices.length := by
  cases event with
  | dag id signal =>
      rw [react]
      dsimp only
      split <;> exact ⟨rfl, rfl⟩
  | vertex id signal =>
      rw [react]
      dsimp only
      cases attempt.vertex? id with
      | none => exact ⟨rfl, rfl⟩
      | some vertex => exact ⟨rfl, List.length_set⟩
  | tasks vertex request =>
      rw [react]
      cases attempt.layer <;> exact ⟨rfl, rfl⟩
  | finished dag phase => exact ⟨rfl, rfl⟩

end Attempt

namespace Dispatcher

/-- A dispatcher with the handlers of an attempt, of the job and the number of vertices that it started
with, and with the hosts of a run in which some may be lost. -/
structure Stationed (id : DagId) (count : Nat) (lost : HostId → Prop) (dispatcher : Dispatcher Attempt) :
    Prop where
  staffed : dispatcher.Staffed
  id : dispatcher.state.id = id
  length : dispatcher.state.vertices.length = count
  books : ∃ diary served lost, dispatcher.Ledger diary served lost
  housed : dispatcher.Housed lost

namespace Stationed

variable {id : DagId} {count : Nat} {lost : HostId → Prop} {dispatcher : Dispatcher Attempt}
  (h : dispatcher.Stationed id count lost)

include h

/-- A change that leaves alone the handlers, the identifier and the number of vertices. -/
theorem of_same {after : Dispatcher Attempt} (hhandlers : after.handlers = dispatcher.handlers)
    (hstate : after.state = dispatcher.state) (hbooks : ∃ diary served lost, after.Ledger diary served lost)
    (hhoused : after.Housed lost) : after.Stationed id count lost where
  staffed := h.staffed.of_handlers hhandlers (fun hlayer => by rw [hstate, hlayer])
  id := by rw [hstate, h.id]
  length := by rw [hstate, h.length]
  books := hbooks
  housed := hhoused

theorem deliver {entity : Entity} {event : Event} {rest : List Event}
    (hqueue : dispatcher.queue entity = event :: rest)
    (hbooks : ∃ diary served lost, (dispatcher.deliver entity).Ledger diary served lost)
    (hhoused : (dispatcher.deliver entity).Housed lost) :
    (dispatcher.deliver entity).Stationed id count lost := by
  have hpopped : (dispatcher.popped entity).Staffed :=
    h.staffed.of_handlers (handlers_popped _ _) (fun hlayer => by rw [state_popped, hlayer])
  obtain ⟨hstate, sent, -, hgains⟩ := hpopped.carries_handle (dispatcher.host? entity) event
  rw [state_popped] at hstate
  have hstaffed := hpopped.of_handlers hgains.handlers (fun hlayer => by
    rw [state_popped] at hlayer
    rw [hstate]
    exact Attempt.layer_react_of_none hlayer event)
  obtain ⟨hid, hlength⟩ := dispatcher.state.react_keeps event
  rw [deliver_eq hqueue] at hbooks hhoused ⊢
  refine ⟨⟨hstaffed.onDag, hstaffed.onVertex, hstaffed.onFinished, hstaffed.onTasks⟩, ?_, ?_, hbooks,
    hhoused⟩
  · exact (congrArg Attempt.id hstate).trans (hid.trans h.id)
  · exact (congrArg (fun attempt => attempt.vertices.length) hstate).trans (hlength.trans h.length)

theorem act {activity : Activity Attempt} (hregister : ∀ kind handler, activity ≠ .register kind handler)
    (hlose : ∀ host, activity = .lose host → lost host)
    (hcaller : ∀ event host, activity = .dispatch event (some host) → ∀ other, lost other → host = other) :
    (dispatcher.act activity).Stationed id count lost := by
  have hbooks : ∃ diary served lost, (dispatcher.act activity).Ledger diary served lost := by
    obtain ⟨_, _, _, hledger⟩ := h.books
    exact ⟨_, _, _, hledger.act activity⟩
  have hhoused := h.housed.act hlose hcaller
  cases activity with
  | register kind handler => exact absurd rfl (hregister kind handler)
  | dispatch event caller =>
      obtain ⟨hhandlers, hstate, -⟩ := dispatcher.dispatch_keeps event caller
      exact h.of_same hhandlers hstate hbooks hhoused
  | deliver entity =>
      cases hqueue : dispatcher.queue entity with
      | nil => rwa [Dispatcher.act, deliver_of_queue_eq_nil hqueue]
      | cons event rest => exact h.deliver hqueue hbooks hhoused
  | close entity =>
      rw [Dispatcher.act] at hbooks hhoused ⊢
      split
      next hclose =>
        rw [if_pos hclose] at hbooks hhoused
        exact h.of_same rfl rfl hbooks hhoused
      next => exact h
  | refuse | lose => exact h.of_same rfl rfl hbooks hhoused

/-- The handlers of an attempt tell what is foreign to its job. -/
theorem sealed : dispatcher.Sealed (Entity.isOwn id count) where
  discreet event handler hhandler := by
    cases event with
    | dag other signal =>
        cases h.staffed.onDag.symm.trans hhandler
        rw [Attempt.onDag_eq]
        exact Action.discreet_ofStep _
    | vertex vertex signal =>
        cases h.staffed.onVertex.symm.trans hhandler
        rw [Attempt.onVertex_eq]
        exact Action.discreet_ofStep _
    | finished dag phase =>
        cases h.staffed.onFinished.symm.trans hhandler
        trivial
    | tasks vertex request =>
        rcases h.staffed.onTasks with honTasks | ⟨hnone, -⟩
        · cases honTasks.symm.trans hhandler
          rw [Attempt.onTasks]
          cases dispatcher.state.layer with
          | none => trivial
          | some layer => exact Attempt.discreet_insist _ _
        · cases hnone.symm.trans hhandler
  ignores event handler hforeign hhandler := by
    cases event with
    | dag other signal =>
        have hother : other ≠ dispatcher.state.id := h.id ▸ of_decide_eq_false hforeign
        cases h.staffed.onDag.symm.trans hhandler
        rw [Attempt.onDag, if_pos hother]
        exact ⟨[.foreignDag dispatcher.state.id other], rfl⟩
    | vertex place signal =>
        have hbeyond : count ≤ place.index := Nat.le_of_not_lt (of_decide_eq_false hforeign)
        have hnone : dispatcher.state.vertex? place = none := List.getElem?_eq_none (h.length ▸ hbeyond)
        cases h.staffed.onVertex.symm.trans hhandler
        rw [Attempt.onVertex, hnone]
        exact ⟨[.unknownVertex dispatcher.state.id place], rfl⟩
    | finished | tasks => cases hforeign
  sorted entity event hevent := by
    obtain ⟨_, _, _, hledger⟩ := h.books
    exact hledger.sorted hevent
  attended entity hwaiting := by
    obtain ⟨_, _, _, hledger⟩ := h.books
    exact h.housed.gone_of_queue hledger.losses.dead hwaiting

end Stationed

end Dispatcher

namespace Coordinator

open Dispatcher

theorem stationed_of_submit {id : DagId} {plan : Plan} {config : Config} {coordinator : Coordinator}
    (hsubmit : submit id plan config = .ok coordinator) (layer : Option TaskLayer) (lost : HostId → Prop) :
    (coordinator.equip layer).dispatcher.Stationed id plan.vertices.length lost := by
  obtain ⟨graph, hgraph, hrouted, -, hlanes, hinFlight, hsituation⟩ := submit_ok hsubmit layer
  have hwired := Attempt.wired_create ⟨id, plan, graph, config.settings.gating, hgraph⟩ layer
  have hstate := congrArg Situation.attempt hsituation
  have hcreate := ledger_create 0 (coordinator.equip layer).dispatcher.state
  have hgone := hrouted.isOpen.gone
  have hledger := hcreate.of_same hgone hlanes hinFlight
    (fun hstopped => absurd hstopped Bool.false_ne_true) (List.nil_prefix)
  refine ⟨hrouted.staffed, congrArg Attempt.id hstate, ?_, ⟨_, _, _, hledger⟩, fun host hmem => ?_,
    fun entity host hhost => ?_⟩
  · have hlength : (coordinator.equip layer).dispatcher.state.vertices.length = graph.size :=
      (congrArg (fun attempt => attempt.vertices.length) hstate).trans hwired.length
    exact hlength.trans (Setting.size ⟨id, plan, graph, config.settings.gating, hgraph⟩)
  · rw [hgone] at hmem
    cases hmem
  · rw [host?, lane?, hlanes] at hhost
    cases hhost

/-- If a host is lost in a run, then every event is dispatched from that host or from outside of any. -/
def Cohosted (activities : List (Activity Attempt)) : Prop :=
  ∀ host, .lose host ∈ activities → ∀ event caller, .dispatch event caller ∈ activities →
    caller = none ∨ caller = some host

theorem agrees_erased {id : DagId} {plan : Plan} {config : Config} {coordinator : Coordinator}
    (hsubmit : submit id plan config = .ok coordinator) (layer : Option TaskLayer)
    {activities : List (Activity Attempt)} (hregister : ∀ kind handler, .register kind handler ∉ activities)
    (hcohosted : Cohosted activities) :
    let own := Entity.isOwn id plan.vertices.length
    let start := (coordinator.equip layer).dispatcher
    let erased := activities.filter (Activity.concerns own)
    start.along observed erased = start.along (ofOwn own observed) activities ∧
      start.along Dispatcher.served erased = start.along (ofOwn own Dispatcher.served) activities ∧
      (start.through activities).Agrees own (start.through erased) := by
  intro own start erased
  have hstationed := stationed_of_submit hsubmit layer (fun host => .lose host ∈ activities)
  refine (Agrees.refl own start).through (· ∈ activities) (fun _ h => h.sealed)
    (fun dispatcher activity hmem h => h.act ?_ ?_ ?_) hstationed (fun _ hmem => hmem) hregister
  · rintro kind handler rfl
    exact hregister kind handler hmem
  · rintro host rfl
    exact hmem
  · rintro event host rfl other hlost
    have hsame := (hcohosted other hlost event (some host) hmem).resolve_left (Option.some_ne_none host)
    exact Option.some.inj hsame

/-- Foreign traffic does not interfere. Erase from a run, which may go as far as a shutdown or the loss of
the host, everything that is done to foreign lanes: every dispatch of a foreign event, every delivery from a
foreign lane and the closing of it. What is left is a run in which the same events are handed to the same
handlers and every dispatch, by a handler or from outside, is answered as it was. It leaves behind the same
attempt, with its job, its vertices, the published phase, the ends that the owner was told and the records of
the task layer, and the same events on every lane that is not foreign. So does any other run that differs from
it in nothing but foreign traffic. Only if one of several hosts is lost a report of the task layer may get lost
on a foreign lane that is dead, and the reports behind it with it. -/
theorem foreign_traffic_leaves_no_trace {id : DagId} {plan : Plan} {config : Config}
    {coordinator : Coordinator} (hsubmit : submit id plan config = .ok coordinator) (layer : Option TaskLayer)
    (activities : List (Activity Attempt)) (hregister : ∀ kind handler, .register kind handler ∉ activities)
    (hcohosted : Cohosted activities) :
    let own := Entity.isOwn id plan.vertices.length
    let start := (coordinator.equip layer).dispatcher
    let erased := activities.filter (Activity.concerns own)
    start.diary erased = start.along (ofOwn own observed) activities ∧
    start.along Dispatcher.served erased = start.along (ofOwn own Dispatcher.served) activities ∧
    (start.through erased).state = (start.through activities).state ∧
    (∀ entity, own entity = true →
      (start.through erased).queue entity = (start.through activities).queue entity) ∧
    ∀ others, others.filter (Activity.concerns own) = erased → Cohosted others →
      (start.through others).state = (start.through activities).state ∧
      ∀ entity, own entity = true →
        (start.through others).queue entity = (start.through activities).queue entity := by
  intro own start erased
  obtain ⟨hobserved, hserved, hagrees⟩ := agrees_erased hsubmit layer hregister hcohosted
  refine ⟨(start.diary_eq erased).trans hobserved, hserved, hagrees.state.symm,
    fun entity hown => (hagrees.queue entity hown).symm, fun others hothers hhosts => ?_⟩
  have hregisters : ∀ kind handler, .register kind handler ∉ others := by
    intro kind handler hmem
    have hkept : .register kind handler ∈ erased := hothers ▸ List.mem_filter.mpr ⟨hmem, rfl⟩
    exact hregister kind handler (List.mem_filter.mp hkept).1
  obtain ⟨-, -, hagrees'⟩ := agrees_erased hsubmit layer hregisters hhosts
  rw [hothers] at hagrees'
  exact ⟨hagrees'.state.trans hagrees.state.symm,
    fun entity hown => (hagrees'.queue entity hown).trans (hagrees.queue entity hown).symm⟩

/-- A run of a job of two vertices in which another job is to be killed, and a vertex that is not there. -/
def troubledRun : List (Activity Attempt) :=
  [.dispatch (.dag ⟨7⟩ .kill) (some ⟨1⟩), .dispatch (.dag ⟨1⟩ .init) (some ⟨0⟩),
    .dispatch (.vertex ⟨2⟩ .kill) (some ⟨0⟩), .deliver (.dag ⟨7⟩), .dispatch (.dag ⟨1⟩ .start) none,
    .deliver (.dag ⟨1⟩), .dispatch (.dag ⟨7⟩ .init) none, .deliver (.vertex ⟨2⟩), .deliver (.dag ⟨1⟩)]

/-- With the foreign events, of which one is still in flight, or without them, the job runs and its first vertex
is told the same. -/
theorem foreign_traffic_leaves_no_trace_line :
    let quietRun := [.dispatch (.dag ⟨1⟩ .init) (some ⟨0⟩), .dispatch (.dag ⟨1⟩ .start) none,
      .deliver (.dag ⟨1⟩), .deliver (.dag ⟨1⟩)]
    let troubled := line.dispatcher.through troubledRun
    let quiet := line.dispatcher.through quietRun
    troubled.inFlight = quiet.inFlight + 1 ∧ quiet.state.dag.phase = .running ∧
      quiet.state = troubled.state ∧ quiet.queue (.vertex ⟨0⟩) = troubled.queue (.vertex ⟨0⟩) ∧
      quiet.queue (.vertex ⟨0⟩) = [.vertex ⟨0⟩ .init, .vertex ⟨0⟩ .start] := by
  intro quietRun troubled quiet
  have hregister : ∀ kind handler, Activity.register kind handler ∉ troubledRun := by simp [troubledRun]
  have hcohosted : Cohosted troubledRun := by
    intro host hlost
    simp [troubledRun] at hlost
  have hlength : (Plan.chain 2 1).vertices.length = 2 := by decide
  obtain ⟨-, -, hstate, hqueue, -⟩ :=
    foreign_traffic_leaves_no_trace submit_line none troubledRun hregister hcohosted
  rw [hlength] at hstate hqueue
  exact ⟨by decide, by decide, hstate, hqueue (.vertex ⟨0⟩) rfl, by decide⟩

end Coordinator

end JobFlow
