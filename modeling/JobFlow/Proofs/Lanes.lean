import Mathlib.Algebra.GroupWithZero.Nat
import Mathlib.Algebra.Order.BigOperators.Group.List
import Mathlib.Algebra.Order.Group.Nat
import JobFlow.Proofs.Run

/-!
The lanes of any dispatcher, also of one that was stopped. Each entity has at most one lane, and what
waits can be weighed, each event at its own cost. Main statement: whatever a handler does, the
dispatcher gains some of the events that it sends, each on the lane of its entity, and nothing else.
-/

namespace JobFlow

namespace Lane

variable (cost : Event → Nat)

/-- What waits on some lanes, weighed. -/
def weigh (lanes : List (Entity × Lane)) : Nat := ((lanes.flatMap (·.2.queue)).map cost).sum

theorem weigh_cons (pair : Entity × Lane) (lanes : List (Entity × Lane)) :
    weigh cost (pair :: lanes) = (pair.2.queue.map cost).sum + weigh cost lanes := by
  rw [weigh, List.flatMap_cons, List.map_append, List.sum_append]
  rfl

/-- An event weighs no less at a higher cost. -/
theorem weigh_le {cost other : Event → Nat} (hle : ∀ event, cost event ≤ other event)
    (lanes : List (Entity × Lane)) : weigh cost lanes ≤ weigh other lanes :=
  List.sum_le_sum (fun event _ => hle event)

theorem weigh_append (lanes later : List (Entity × Lane)) :
    weigh cost (lanes ++ later) = weigh cost lanes + weigh cost later := by
  rw [weigh, List.flatMap_append, List.map_append, List.sum_append]
  rfl

section Put

variable {entity : Entity} {lane old : Lane} {lanes : List (Entity × Lane)}

variable (lane) in
/-- A lane in the place of another changes the weight by their difference. -/
theorem weigh_put (hold : lanes.lookup entity = some old) :
    weigh cost (put entity lane lanes) + (old.queue.map cost).sum =
      weigh cost lanes + (lane.queue.map cost).sum := by
  induction lanes with
  | nil => cases hold
  | cons pair rest ih =>
      obtain ⟨other, here⟩ := pair
      rw [lookup_cons] at hold
      rw [put]
      by_cases heq : other = entity
      · rw [if_pos heq.symm] at hold
        cases hold
        rw [if_pos heq, weigh_cons, weigh_cons]
        dsimp only
        omega
      · rw [if_neg (Ne.symm heq)] at hold
        have hrest := ih hold
        rw [if_neg heq, weigh_cons, weigh_cons]
        omega

theorem lookup_of_mem (hdistinct : (lanes.map (·.1)).Nodup) (hmem : (entity, lane) ∈ lanes) :
    lanes.lookup entity = some lane := by
  induction lanes with
  | nil => cases hmem
  | cons pair rest ih =>
      rw [List.map_cons, List.nodup_cons] at hdistinct
      rw [lookup_cons]
      rcases List.mem_cons.mp hmem with rfl | hrest
      · exact if_pos rfl
      · have hne : entity ≠ pair.1 := by
          rintro rfl
          exact hdistinct.1 (List.mem_map.mpr ⟨_, hrest, rfl⟩)
        rw [if_neg hne]
        exact ih hdistinct.2 hrest

theorem entities_put (hold : lanes.lookup entity = some old) :
    (put entity lane lanes).map (·.1) = lanes.map (·.1) := by
  induction lanes with
  | nil => cases hold
  | cons pair rest ih =>
      obtain ⟨other, here⟩ := pair
      rw [lookup_cons] at hold
      rw [put]
      by_cases heq : other = entity
      · rw [if_pos heq, List.map_cons, List.map_cons, heq]
      · rw [if_neg (Ne.symm heq)] at hold
        rw [if_neg heq, List.map_cons, List.map_cons, ih hold]

theorem filter_of_not_mem (hmissing : entity ∉ lanes.map (·.1)) :
    lanes.filter (·.1 ≠ entity) = lanes := by
  rw [List.filter_eq_self]
  rintro pair hpair
  refine decide_eq_true ?_
  rintro rfl
  exact hmissing (List.mem_map_of_mem hpair)

variable (entity) in
/-- Without the lane of an entity, of which there is at most one, its events are missing. -/
theorem weigh_filter (hdistinct : (lanes.map (·.1)).Nodup) :
    weigh cost (lanes.filter (·.1 ≠ entity)) +
      (((lanes.lookup entity).elim [] (·.queue)).map cost).sum = weigh cost lanes := by
  induction lanes with
  | nil => rfl
  | cons pair rest ih =>
      rw [List.map_cons, List.nodup_cons] at hdistinct
      rw [lookup_cons, weigh_cons]
      by_cases heq : pair.1 = entity
      · subst heq
        rw [if_pos rfl, List.filter_cons_of_neg (by simp), filter_of_not_mem hdistinct.1]
        exact Nat.add_comm _ _
      · have hrest := ih hdistinct.2
        rw [if_neg (Ne.symm heq), List.filter_cons_of_pos (by simpa using heq), weigh_cons]
        omega

theorem entities_putLast (hdistinct : (lanes.map (·.1)).Nodup) :
    ((putLast entity lane lanes).map (·.1)).Nodup := by
  rw [putLast, List.map_append, List.nodup_append]
  refine ⟨hdistinct.sublist (List.filter_sublist.map _),
    List.nodup_cons.mpr ⟨List.not_mem_nil, List.nodup_nil⟩, ?_⟩
  intro other hother last hlast heq
  obtain ⟨pair, hpair, rfl⟩ := List.mem_map.mp hother
  have hne := of_decide_eq_true (List.mem_filter.mp hpair).2
  exact hne (heq.trans (List.mem_singleton.mp hlast))

variable (entity lane) in
theorem weigh_putLast (hdistinct : (lanes.map (·.1)).Nodup) :
    weigh cost (putLast entity lane lanes) +
        (((lanes.lookup entity).elim [] (·.queue)).map cost).sum =
      weigh cost lanes + (lane.queue.map cost).sum := by
  have hfilter := weigh_filter cost entity hdistinct
  have hlast : weigh cost [(entity, lane)] = (lane.queue.map cost).sum := weigh_cons cost _ []
  rw [putLast, weigh_append, hlast]
  omega

end Put

end Lane

namespace Dispatcher

variable {σ : Type} {dispatcher : Dispatcher σ}

/-- What waits, weighed. -/
def load (dispatcher : Dispatcher σ) (cost : Event → Nat) : Nat := Lane.weigh cost dispatcher.lanes

/-- No entity has two lanes. -/
def Distinct (dispatcher : Dispatcher σ) : Prop := (dispatcher.lanes.map (·.1)).Nodup

theorem queued_eq_load (dispatcher : Dispatcher σ) : dispatcher.queued = dispatcher.load (fun _ => 1) := by
  rw [queued, load, Lane.weigh, List.map_const', List.sum_replicate_nat, Nat.mul_one]

/-! ### One event less, and the next one -/

section Popped

variable {dispatcher : Dispatcher σ} {entity : Entity} {event : Event} {rest : List Event}
  (hqueue : dispatcher.queue entity = event :: rest)

include hqueue

theorem distinct_popped (hdistinct : dispatcher.Distinct) : (dispatcher.popped entity).Distinct := by
  obtain ⟨depth, host, hlane, hpopped⟩ := popped_eq hqueue
  rw [hpopped, Distinct, Lane.entities_put hlane]
  exact hdistinct

theorem load_popped (cost : Event → Nat) :
    (dispatcher.popped entity).load cost + cost event = dispatcher.load cost := by
  obtain ⟨depth, host, hlane, hpopped⟩ := popped_eq hqueue
  have hput := Lane.weigh_put cost ⟨rest, depth - 1, host⟩ hlane
  dsimp only at hput
  rw [List.map_cons, List.sum_cons] at hput
  rw [hpopped]
  show Lane.weigh cost (Lane.put entity ⟨rest, depth - 1, host⟩ dispatcher.lanes) + cost event =
    Lane.weigh cost dispatcher.lanes
  omega

theorem queued_popped : (dispatcher.popped entity).queued + 1 = dispatcher.queued := by
  rw [queued_eq_load, queued_eq_load]
  exact load_popped hqueue (fun _ => 1)

end Popped

/-- The next entity is one for which something waits, and there is one unless nothing waits at all. -/
theorem nextReady?_cases {dispatcher : Dispatcher σ} (hdistinct : dispatcher.Distinct) :
    (dispatcher.nextReady? = none ∧ dispatcher.queued = 0) ∨
    ∃ entity event rest, dispatcher.nextReady? = some entity ∧
      dispatcher.queue entity = event :: rest := by
  cases hnext : dispatcher.nextReady? with
  | none =>
      left
      refine ⟨rfl, List.length_eq_zero_iff.mpr (List.flatMap_eq_nil_iff.mpr ?_)⟩
      intro pair hmem
      have hempty := List.find?_eq_none.mp (Option.map_eq_none_iff.mp hnext) pair hmem
      simpa using hempty
  | some entity =>
      right
      obtain ⟨⟨_, lane⟩, hfind, rfl⟩ := Option.map_eq_some_iff.mp hnext
      have hlane := Lane.lookup_of_mem hdistinct (List.mem_of_find?_eq_some hfind)
      have hwaiting : lane.queue ≠ [] := by simpa using List.find?_some hfind
      obtain ⟨event, rest, hqueue⟩ := List.exists_cons_of_ne_nil hwaiting
      refine ⟨_, event, rest, rfl, ?_⟩
      rw [queue, lane?, hlane]
      exact hqueue

/-! ### Closing -/

theorem exists_foldl_closeLane (dispatcher : Dispatcher σ) (entities : List Entity) :
    ∃ notices, entities.foldl closeLane dispatcher = { dispatcher with
      lanes := dispatcher.lanes.filter (·.1 ∉ entities), log := dispatcher.log ++ notices } := by
  induction entities generalizing dispatcher with
  | nil => exact ⟨[], by simp⟩
  | cons first rest ih =>
      obtain ⟨notices, heq⟩ := ih (dispatcher.closeLane first)
      refine ⟨(if dispatcher.isDead first then [.laneDied first] else []) ++ notices, ?_⟩
      rw [List.foldl_cons, heq, closeLane]
      dsimp only
      rw [List.append_assoc, List.filter_filter]
      congr 2
      funext pair
      simp [Bool.and_comm]

/-- Nothing but the lanes and the log changes when all lanes are closed. -/
theorem exists_closeLanes (dispatcher : Dispatcher σ) : ∃ notices, dispatcher.closeLanes =
    { dispatcher with lanes := [], log := dispatcher.log ++ notices } := by
  obtain ⟨notices, heq⟩ := dispatcher.exists_foldl_closeLane (dispatcher.lanes.map (·.1))
  have hnone : dispatcher.lanes.filter (·.1 ∉ dispatcher.lanes.map (·.1)) = [] := by
    rw [List.filter_eq_nil_iff]
    intro pair hpair
    simpa using ⟨pair.2, hpair⟩
  rw [hnone] at heq
  exact ⟨notices, heq⟩

/-! ### What is gained -/

/-- A dispatch is accepted on a lane whose host is there, or it opens a dead lane, or it changes nothing. -/
theorem dispatch_eq (dispatcher : Dispatcher σ) (event : Event) (caller : Option HostId) :
    (∃ lane, dispatcher.dispatch event caller = (dispatcher.accept event lane, .ok ()) ∧
      dispatcher.stopped = false ∧ lane.host ∉ dispatcher.gone ∧
      (dispatcher.lane? event.entity = some lane ∨ dispatcher.lane? event.entity = none ∧
        ∃ host, caller = some host ∧ lane = { host := host })) ∨
    (∃ host ∈ dispatcher.gone, caller = some host ∧ dispatcher.lane? event.entity = none ∧
      dispatcher.dispatch event caller =
        ({ dispatcher with lanes := dispatcher.lanes ++ [(event.entity, { host := host })] },
          .error .stopped)) ∨
    ∃ refusal, dispatcher.dispatch event caller = (dispatcher, .error refusal) := by
  rw [dispatch]
  by_cases hstopped : dispatcher.stopped = true
  · exact Or.inr (Or.inr ⟨.stopped, if_pos hstopped⟩)
  · rw [if_neg hstopped]
    have haccepting := Bool.eq_false_of_not_eq_true hstopped
    cases hlane : dispatcher.lane? event.entity with
    | some lane =>
        rw [Option.some_or]
        dsimp only
        by_cases hdead : lane.host ∈ dispatcher.gone
        · rw [if_pos hdead, Lane.put_of_lookup hlane]
          exact Or.inr (Or.inr ⟨.stopped, rfl⟩)
        · exact Or.inl ⟨lane, if_neg hdead, haccepting, hdead, Or.inl rfl⟩
    | none =>
        rw [Option.none_or]
        cases caller with
        | none => exact Or.inr (Or.inr ⟨.noRuntime, rfl⟩)
        | some host =>
            dsimp only [Option.map_some]
            by_cases hdead : host ∈ dispatcher.gone
            · rw [if_pos hdead, Lane.put_of_lookup_eq_none _ hlane]
              exact Or.inr (Or.inl ⟨host, hdead, rfl, rfl, rfl⟩)
            · exact Or.inl ⟨{ host := host }, if_neg hdead, haccepting, hdead, Or.inr ⟨rfl, host, rfl, rfl⟩⟩

/-- A dispatch leaves alone whatever is not a lane. -/
theorem dispatch_keeps (dispatcher : Dispatcher σ) (event : Event) (caller : Option HostId) :
    (dispatcher.dispatch event caller).1.handlers = dispatcher.handlers ∧
      (dispatcher.dispatch event caller).1.state = dispatcher.state ∧
      (dispatcher.dispatch event caller).1.gone = dispatcher.gone := by
  rcases dispatcher.dispatch_eq event caller with ⟨lane, heq, -⟩ | ⟨host, -, -, -, heq⟩ | ⟨refusal, heq⟩ <;>
    rw [heq] <;> exact ⟨rfl, rfl, rfl⟩

/-- The lane on which an event is accepted is that of its entity or a new one. -/
theorem queue_eq_of_accepted {event : Event} {caller : Option HostId} {lane : Lane}
    (hlane : dispatcher.lane? event.entity = some lane ∨ dispatcher.lane? event.entity = none ∧
      ∃ host, caller = some host ∧ lane = { host := host }) :
    lane.queue = dispatcher.queue event.entity ∧
      (lane.queue ≠ [] → dispatcher.lane? event.entity = some lane) := by
  rcases hlane with hfound | ⟨hnone, host, -, rfl⟩
  · exact ⟨by rw [queue, hfound, Option.elim_some], fun _ => hfound⟩
  · exact ⟨by rw [queue, hnone, Option.elim_none], fun hwaiting => absurd rfl hwaiting⟩

/-- A dispatcher after it has accepted some events, in order, and done no more to its lanes. -/
structure Gains (before : Dispatcher σ) (sent : List Event) (after : Dispatcher σ) : Prop where
  handlers : after.handlers = before.handlers
  stopped : after.stopped = before.stopped
  refused : before.stopped = true → sent = []
  queue : ∀ entity, after.queue entity = before.queue entity ++ sent.filter (·.entity = entity)
  distinct : before.Distinct → after.Distinct
  load : before.Distinct → ∀ cost, after.load cost = before.load cost + (sent.map cost).sum
  inFlight : after.inFlight = before.inFlight + sent.length

/-- A dispatcher with the same lanes has gained nothing. -/
theorem gains_nil {before after : Dispatcher σ} (hhandlers : after.handlers = before.handlers)
    (hstopped : after.stopped = before.stopped) (hlanes : after.lanes = before.lanes)
    (hinFlight : after.inFlight = before.inFlight) : before.Gains [] after where
  handlers := hhandlers
  stopped := hstopped
  refused _ := rfl
  queue entity := by
    rw [List.filter_nil, List.append_nil, queue, queue, lane?, lane?, hlanes]
  distinct hdistinct := by
    rw [Distinct, hlanes]
    exact hdistinct
  load _ cost := by
    unfold Dispatcher.load
    rw [hlanes]
    rfl
  inFlight := hinFlight

theorem Gains.trans {first second third : Dispatcher σ} {sent later : List Event}
    (h : first.Gains sent second) (h' : second.Gains later third) :
    first.Gains (sent ++ later) third where
  handlers := h'.handlers.trans h.handlers
  stopped := h'.stopped.trans h.stopped
  refused hstopped := by
    rw [h.refused hstopped, h'.refused (h.stopped.trans hstopped)]
    rfl
  queue entity := by
    rw [h'.queue, h.queue, List.filter_append, List.append_assoc]
  distinct hdistinct := h'.distinct (h.distinct hdistinct)
  load hdistinct cost := by
    rw [h'.load (h.distinct hdistinct), h.load hdistinct, List.map_append, List.sum_append]
    omega
  inFlight := by
    rw [h'.inFlight, h.inFlight, List.length_append]
    omega

theorem Gains.queued {before after : Dispatcher σ} {sent : List Event} (h : before.Gains sent after)
    (hdistinct : before.Distinct) : after.queued = before.queued + sent.length := by
  have hload := h.load hdistinct (fun _ => 1)
  rwa [← queued_eq_load, ← queued_eq_load, List.map_const', List.sum_replicate_nat, Nat.mul_one] at hload

theorem gains_accept {event : Event} {lane : Lane} (hstopped : dispatcher.stopped = false)
    (hqueue : lane.queue = dispatcher.queue event.entity)
    (hlane : lane.queue ≠ [] → dispatcher.lane? event.entity = some lane) :
    dispatcher.Gains [event] (dispatcher.accept event lane) where
  handlers := rfl
  stopped := rfl
  refused h := by
    rw [hstopped] at h
    cases h
  queue := queue_accept dispatcher event lane hqueue
  distinct hdistinct := by
    unfold Distinct accept
    dsimp only
    split
    next => exact Lane.entities_putLast hdistinct
    next hwaiting =>
      rw [Lane.entities_put (hlane (by simpa using hwaiting))]
      exact hdistinct
  load hdistinct cost := by
    have hpush : ((lane.push event).queue.map cost).sum = (lane.queue.map cost).sum + cost event := by
      rw [Lane.push, List.map_append, List.sum_append]
      rfl
    have hevent : ([event].map cost).sum = cost event := rfl
    unfold Dispatcher.load accept
    dsimp only
    rw [hevent]
    split
    next =>
      have hlast := Lane.weigh_putLast cost event.entity (lane.push event) hdistinct
      change _ + ((dispatcher.queue event.entity).map cost).sum = _ at hlast
      rw [← hqueue, hpush] at hlast
      omega
    next hwaiting =>
      have hput := Lane.weigh_put cost (lane.push event) (hlane (by simpa using hwaiting))
      rw [hpush] at hput
      omega
  inFlight := rfl

/-- Nothing is gained with a lane on which nothing waits. -/
theorem gains_open {entity : Entity} {lane : Lane} (hempty : lane.queue = [])
    (hnone : dispatcher.lane? entity = none) :
    dispatcher.Gains [] { dispatcher with lanes := dispatcher.lanes ++ [(entity, lane)] } where
  handlers := rfl
  stopped := rfl
  refused _ := rfl
  queue other := by
    rw [List.filter_nil, List.append_nil, queue, queue, lane?, lane?,
      ← Lane.put_of_lookup_eq_none lane hnone, Lane.lookup_put]
    by_cases heq : other = entity
    · subst heq
      have hbefore : dispatcher.lanes.lookup other = none := hnone
      rw [if_pos rfl, Option.elim_some, hempty, hbefore, Option.elim_none]
    · rw [if_neg heq]
  distinct hdistinct := by
    have hmissing := List.lookup_eq_none_iff.mp hnone
    rw [Distinct, List.map_append, List.nodup_append]
    refine ⟨hdistinct, List.nodup_cons.mpr ⟨List.not_mem_nil, List.nodup_nil⟩, ?_⟩
    intro other hother last hlast heq
    obtain ⟨pair, hpair, rfl⟩ := List.mem_map.mp hother
    have hsame : pair.1 = entity := heq.trans (List.mem_singleton.mp hlast)
    simpa [hsame] using hmissing pair hpair
  load _ cost := by
    have hlast : Lane.weigh cost [(entity, lane)] = (lane.queue.map cost).sum := Lane.weigh_cons cost _ []
    rw [hempty] at hlast
    exact (Lane.weigh_append cost _ _).trans (congrArg _ hlast)
  inFlight := rfl

/-- A dispatch is accepted or leaves what waits as it was. -/
theorem gains_dispatch (dispatcher : Dispatcher σ) (event : Event) (caller : Option HostId) :
    ∃ sent, sent.Sublist [event] ∧ dispatcher.Gains sent (dispatcher.dispatch event caller).1 := by
  rcases dispatcher.dispatch_eq event caller with
    ⟨lane, heq, hstopped, -, hlane⟩ | ⟨host, -, -, hnone, heq⟩ | ⟨refusal, heq⟩
  · obtain ⟨hqueue, hfound⟩ := queue_eq_of_accepted hlane
    rw [heq]
    exact ⟨[event], List.Sublist.refl _, gains_accept hstopped hqueue hfound⟩
  · rw [heq]
    exact ⟨[], List.nil_sublist _, gains_open rfl hnone⟩
  · rw [heq]
    exact ⟨[], List.nil_sublist _, gains_nil rfl rfl rfl rfl⟩

/-- What a dispatcher has become by a step some of whose events it may have refused. -/
def Carries (before : Dispatcher σ) (step : Step σ) (after : Dispatcher σ) : Prop :=
  after.state = step.machine ∧ ∃ sent, sent.Sublist step.outbound ∧ before.Gains sent after

theorem carries_done (dispatcher : Dispatcher σ) (state : σ) :
    dispatcher.Carries { machine := state } { dispatcher with state := state } :=
  ⟨rfl, [], List.Sublist.refl _, gains_nil rfl rfl rfl rfl⟩

theorem Carries.after_gains {before middle after : Dispatcher σ} {event : Event} {step : Step σ}
    (h : middle.Carries step after) {sent : List Event} (hsent : sent.Sublist [event])
    (hgains : before.Gains sent middle) :
    before.Carries { step with outbound := event :: step.outbound } after := by
  obtain ⟨hstate, later, hlater, hafter⟩ := h
  exact ⟨hstate, sent ++ later, hsent.append hlater, hgains.trans hafter⟩

theorem Carries.after_note {before after : Dispatcher σ} {notices : List Notice} {step : Step σ}
    (h : (before.note notices).Carries step after) : before.Carries step after := by
  obtain ⟨hstate, sent, hsent, hgains⟩ := h
  have hnote : before.Gains [] (before.note notices) := gains_nil rfl rfl rfl rfl
  exact ⟨hstate, sent, hsent, hnote.trans hgains⟩

theorem carries_dispatchAll (dispatcher : Dispatcher σ) (caller : Option HostId) (event : Event)
    (sent : List Event) (state : σ) : dispatcher.Carries { machine := state, outbound := sent }
      (dispatcher.perform caller event (.dispatchAll sent (.done state))) := by
  induction sent generalizing dispatcher with
  | nil => exact dispatcher.carries_done state
  | cons first rest ih =>
      obtain ⟨taken, htaken, hgains⟩ := dispatcher.gains_dispatch first caller
      rw [Action.dispatchAll, List.foldr_cons, perform]
      dsimp only
      cases (dispatcher.dispatch first caller).2 with
      | ok => exact (ih (dispatcher.dispatch first caller).1).after_gains htaken hgains
      | error refusal =>
          exact (ih ((dispatcher.dispatch first caller).1.note _)).after_note.after_gains htaken hgains

/-- The acts of a step, of whose dispatches some may be refused. -/
theorem carries_ofStep (dispatcher : Dispatcher σ) (caller : Option HostId) (event : Event) (step : Step σ) :
    dispatcher.Carries step (dispatcher.perform caller event (.ofStep step)) := by
  obtain ⟨machine, outbound, notices⟩ := step
  rw [Action.ofStep, Action.warnAll]
  dsimp only
  induction notices generalizing dispatcher with
  | nil => exact dispatcher.carries_dispatchAll caller event outbound machine
  | cons first rest ih =>
      obtain ⟨hstate, hgains⟩ := (ih (dispatcher.note [first])).after_note
      exact ⟨hstate, hgains⟩

/-- A task layer breaks down at the first report that is refused. -/
theorem carries_insist (dispatcher : Dispatcher Attempt) (caller : Option HostId) (event : Event)
    (attempt : Attempt) (reports : List Event) :
    dispatcher.Carries { machine := attempt, outbound := reports }
      (dispatcher.perform caller event (attempt.insist reports)) := by
  induction reports generalizing dispatcher with
  | nil => exact dispatcher.carries_done attempt
  | cons first rest ih =>
      obtain ⟨taken, htaken, hgains⟩ := dispatcher.gains_dispatch first caller
      rw [Attempt.insist, perform]
      dsimp only
      cases (dispatcher.dispatch first caller).2 with
      | ok => exact (ih (dispatcher.dispatch first caller).1).after_gains htaken hgains
      | error refusal =>
          have hbroken : (dispatcher.dispatch first caller).1.Gains []
              ((dispatcher.dispatch first caller).1.perform caller event (.abort attempt)) :=
            gains_nil rfl rfl rfl rfl
          have hall := hgains.trans hbroken
          rw [List.append_nil] at hall
          exact ⟨rfl, taken, htaken.trans (List.sublist_append_left [first] rest), hall⟩

end Dispatcher

end JobFlow
