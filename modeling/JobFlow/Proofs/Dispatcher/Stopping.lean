import JobFlow.Proofs.Dispatcher.Emptying
import JobFlow.Proofs.Dispatcher.Serving

/-!
Shutdowns of a dispatcher. A shutdown begins by refusing every dispatch, then the lanes are emptied, by
deliveries in any order while others go on trying and hosts may go away, and each is closed when nothing
waits on it; it is over when no lane is left. Main statement: a shutdown serves what was accepted before it
began, except for what was lost with the host of its lane, and nothing else; after it nothing is accepted or
served any more.
-/

namespace JobFlow

variable {σ : Type}

namespace Dispatcher

variable {dispatcher : Dispatcher σ}

/-! ### After a shutdown -/

/-- Everything is refused and no lane is left. -/
structure Closed (dispatcher : Dispatcher σ) : Prop where
  stopped : dispatcher.stopped = true
  lanes : dispatcher.lanes = []

namespace Closed

variable (h : dispatcher.Closed)

include h

theorem queue (entity : Entity) : dispatcher.queue entity = [] := by
  rw [Dispatcher.queue, lane?, h.lanes]
  rfl

theorem deliver (entity : Entity) : dispatcher.deliver entity = dispatcher :=
  deliver_of_queue_eq_nil (h.queue entity)

/-- What is done to a closed dispatcher calls no handler and changes neither the state nor the count. -/
theorem act (activity : Activity σ) : (dispatcher.act activity).Closed ∧
    (dispatcher.act activity).inFlight = dispatcher.inFlight ∧
    (dispatcher.act activity).state = dispatcher.state ∧ dispatcher.served activity = [] ∧
    (dispatcher.observed activity).filterMap Observation.call? = [] := by
  cases activity with
  | register kind handler => exact ⟨⟨h.stopped, h.lanes⟩, rfl, rfl, rfl, rfl⟩
  | dispatch event caller =>
      rw [Dispatcher.act, dispatch_of_stopped h.stopped]
      exact ⟨h, rfl, rfl, rfl, rfl⟩
  | deliver entity =>
      rw [Dispatcher.act, h.deliver, served, observed, h.queue]
      exact ⟨h, rfl, rfl, rfl, rfl⟩
  | refuse => exact ⟨⟨rfl, h.lanes⟩, rfl, rfl, rfl, rfl⟩
  | close entity =>
      have hnone : (dispatcher.closeLane entity).lanes = [] := by
        rw [closeLane, h.lanes]
        rfl
      rw [Dispatcher.act]
      split
      · exact ⟨⟨h.stopped, hnone⟩, rfl, rfl, rfl, rfl⟩
      · exact ⟨h, rfl, rfl, rfl, rfl⟩
  | lose host =>
      refine ⟨⟨h.stopped, ?_⟩, rfl, rfl, rfl, rfl⟩
      rw [Dispatcher.act, loseHost, h.lanes]
      rfl

theorem through (activities : List (Activity σ)) : (dispatcher.through activities).Closed ∧
    (dispatcher.through activities).inFlight = dispatcher.inFlight ∧
    (dispatcher.through activities).state = dispatcher.state ∧
    dispatcher.along Dispatcher.served activities = [] ∧
    (dispatcher.along observed activities).filterMap Observation.call? = [] := by
  induction activities generalizing dispatcher with
  | nil => exact ⟨h, rfl, rfl, rfl, rfl⟩
  | cons first rest ih =>
      obtain ⟨hclosed, hinFlight, hstate, hserved, hcalls⟩ := h.act first
      obtain ⟨hfinally, hcount, hlast, hlater, hothers⟩ := ih hclosed
      refine ⟨hfinally, hcount.trans hinFlight, hlast.trans hstate, ?_, ?_⟩
      · rw [along, hserved, hlater, List.append_nil]
      · rw [along, List.filterMap_append, hcalls, hothers, List.append_nil]

end Closed

/-! ### During a shutdown -/

theorem stop_of_stopped (hstopped : dispatcher.stopped = true) : dispatcher.stop = dispatcher := by
  rw [stop, if_pos hstopped]

theorem accepted_of_stopped (hstopped : dispatcher.stopped = true) (activities : List (Activity σ)) :
    (∀ event answer, .answered event answer ∈ dispatcher.diary activities → answer = .error .stopped) ∧
    (dispatcher.diary activities).filterMap Observation.accepted? = [] := by
  have hrefused : ∀ event answer, .answered event answer ∈ dispatcher.diary activities →
      answer = .error .stopped := by
    intro event answer hmem
    rw [diary_eq] at hmem
    obtain ⟨before, activity, later, -, hobserved⟩ := exists_of_mem_along hmem
    exact answer_of_stopped ((stopped_through dispatcher before).mpr (Or.inl hstopped)) hobserved
  refine ⟨hrefused, List.filterMap_eq_nil_iff.mpr ?_⟩
  rintro (⟨handler, event⟩ | ⟨event, answer⟩) hmem
  · rfl
  · rw [hrefused event answer hmem]
    rfl

/-- Once everything is refused no lane is added. -/
theorem entities_act (hstopped : dispatcher.stopped = true) (activity : Activity σ) :
    ((dispatcher.act activity).lanes.map (·.1)).Sublist (dispatcher.lanes.map (·.1)) := by
  cases activity with
  | register kind handler => exact List.Sublist.refl _
  | dispatch event caller =>
      rw [act, dispatch_of_stopped hstopped]
  | deliver entity =>
      rw [act, (deliver_of_stopped hstopped entity).1]
  | refuse => exact List.Sublist.refl _
  | close entity =>
      rw [act]
      split
      · exact List.filter_sublist.map _
      · exact List.Sublist.refl _
  | lose host =>
      rw [act, loseHost, List.map_map]
      exact List.Sublist.refl _

theorem entities_through (hstopped : dispatcher.stopped = true) (activities : List (Activity σ)) :
    ((dispatcher.through activities).lanes.map (·.1)).Sublist (dispatcher.lanes.map (·.1)) := by
  induction activities generalizing dispatcher with
  | nil => exact List.Sublist.refl _
  | cons first rest ih =>
      have hnext := (dispatcher.stopped_act first).mpr (Or.inl hstopped)
      exact (ih hnext).trans (entities_act hstopped first)

/-- A lane that is closed is put into the log exactly if it is dead. -/
theorem log_close (hstopped : dispatcher.stopped = true)
    (hdead : ∀ entity, dispatcher.isDead entity = true → dispatcher.queue entity = []) (entity : Entity) :
    (dispatcher.act (.close entity)).log =
      dispatcher.log ++ if dispatcher.isDead entity = true then [.laneDied entity] else [] := by
  rw [act]
  split
  next => rfl
  next hwaiting =>
    rw [if_neg, List.append_nil]
    exact fun hdies => hwaiting ⟨hstopped, hdead entity hdies⟩

/-- A shutdown can be brought to its end from any point of it. -/
theorem exists_closed (hstopped : dispatcher.stopped = true) (hdistinct : dispatcher.Distinct) :
    ∃ served closed : List Entity,
      (dispatcher.through (served.map .deliver ++ closed.map .close)).lanes = [] := by
  obtain ⟨entities, -, -, hend⟩ := exists_end hstopped hdistinct
  exact ⟨entities, _, hend ▸ lanes_closeLanes _⟩

/-! ### The shutdown -/

/-- A shutdown, after whatever was done before and in whatever order lanes are served, serves what was
accepted before it began, in the order of each entity, except for what is lost with the host of its lane.
Handlers are called for what is served, once each, and every dispatch is refused, those of the handlers
included. Lanes whose host went away are dead: nothing waits on them, they refused every event already before,
and they alone are put into the log when they are closed. The stop that begins a shutdown brings it to its end,
which can be reached from any point; another one that comes on the way changes nothing, whatever still waits.
When no lane is left what is in flight is what was lost, all of it on lanes that were put into the log, and
from then on no dispatch, no delivery and no other stop changes anything. -/
theorem stop_drains (threshold : Nat) (state : σ) (before drainage : List (Activity σ)) :
    let start := create threshold state
    let reached := start.through before
    let drained := reached.refuse.through drainage
    let run := before ++ .refuse :: drainage
    let diary := start.diary before ++ reached.refuse.diary drainage
    let accepted := (start.diary before).filterMap Observation.accepted?
    let served := start.along Dispatcher.served run
    let lost := start.along Dispatcher.lost run
    -- what is served, lost and still waiting at every point of the shutdown
    run.foldl observe (start.watched []) = drained.watched diary ∧
    diary.filterMap Observation.call? =
      served.flatMap (fun (event, handler) => handler.toList.map (·, event)) ∧
    (∀ event answer, .answered event answer ∈ reached.refuse.diary drainage →
      answer = .error .stopped) ∧
    (∀ entity, accepted.filter (·.entity = entity) =
      (served.map (·.1)).filter (·.entity = entity) ++ lost.filter (·.entity = entity) ++
        drained.queue entity) ∧
    drained.inFlight = drained.queued + lost.length ∧
    drained.queued + (reached.refuse.along Dispatcher.served drainage).length +
      (reached.refuse.along Dispatcher.lost drainage).length = reached.queued ∧
    ((∀ host, .lose host ∉ before ++ drainage) → lost = []) ∧
    -- the lanes, those that are dead and those that are not
    (∀ entity, drained.isDead entity = true ↔
      ∃ host, drained.host? entity = some host ∧ .lose host ∈ before ++ drainage) ∧
    (∀ event, reached.isDead event.entity = true → reached.queue event.entity = [] ∧
      ∀ caller, reached.dispatch event caller = (reached, .error .stopped)) ∧
    (drained.lanes.map (·.1)).Sublist (reached.lanes.map (·.1)) ∧
    (∀ entity, (drained.act (.close entity)).log =
      drained.log ++ if drained.isDead entity = true then [.laneDied entity] else []) ∧
    -- the stop that begins it, and one that comes later
    (reached.stopped = false → ∃ entities : List Entity,
      reached.stop = reached.refuse.through
        (entities.map .deliver ++ (reached.lanes.map (·.1)).map .close) ∧
      reached.stop.lanes = [] ∧
      reached.stop.log = (reached.refuse.through (entities.map .deliver)).log ++
        ((reached.lanes.map (·.1)).filter reached.isDead).map .laneDied) ∧
    drained.stop = drained ∧
    (∃ others closed : List Entity,
      (drained.through (others.map .deliver ++ closed.map .close)).lanes = []) ∧
    -- the end
    (drained.lanes = [] →
      (∀ entity, accepted.filter (·.entity = entity) =
        (served.map (·.1)).filter (·.entity = entity) ++ lost.filter (·.entity = entity)) ∧
      drained.inFlight = lost.length ∧
      (∀ event ∈ lost, .laneDied event.entity ∈ drained.log) ∧
      ∀ later, (∀ event caller, (drained.through later).dispatch event caller =
          (drained.through later, .error .stopped)) ∧
        (∀ entity, (drained.through later).deliver entity = drained.through later) ∧
        (drained.through later).stop = drained.through later ∧
        (drained.through later).inFlight = drained.inFlight ∧
        (drained.through later).state = drained.state ∧
        drained.along Dispatcher.served later = [] ∧
        (drained.diary later).filterMap Observation.call? = []) := by
  intro start reached drained run diary accepted served lost
  have hrefuse : reached.refuse.stopped = true := rfl
  have hstopped : drained.stopped = true := (stopped_through reached.refuse drainage).mpr (Or.inl rfl)
  obtain ⟨hrefused, hnone⟩ := accepted_of_stopped hrefuse drainage
  have hdiary : start.diary run = diary := diary_append start before (.refuse :: drainage)
  have hdrained : start.through run = drained := through_append start before (.refuse :: drainage)
  have hreached := (ledger_create threshold state).run before
  have hledger := (ledger_create threshold state).run run
  rw [List.nil_append, List.nil_append, List.nil_append, ← diary_eq] at hledger
  change Ledger (start.through run) (start.diary run) served lost at hledger
  rw [hdiary, hdrained] at hledger
  have haccepted : diary.filterMap Observation.accepted? = accepted := by
    rw [List.filterMap_append, hnone, List.append_nil]
  have hqueue := hledger.queue
  rw [haccepted] at hqueue
  refine ⟨?_, hledger.calls, hrefused, hqueue, hledger.inFlight,
    queued_through hrefuse hreached.distinct drainage, fun hhosts => ?_, fun entity => ?_,
    fun event hdead => ⟨hreached.losses.dead _ hdead, dispatch_of_isDead hdead⟩,
    entities_through hrefuse drainage, log_close hstopped hledger.losses.dead, fun hopen => ?_,
    stop_of_stopped hstopped, exists_closed hstopped hledger.distinct, fun hlanes => ?_⟩
  · rw [foldl_observe, List.nil_append, ← diary_eq, hdiary, hdrained]
  · refine along_lost start (fun host hmem => hhosts host ?_)
    simpa [run] using hmem
  · have hgone : ∀ host, host ∈ drained.gone ↔ .lose host ∈ before ++ drainage := by
      intro host
      rw [← hdrained, mem_gone_through]
      simp [run, start, create]
    simp only [isDead_iff, hgone]
    exact exists_congr (fun host => and_comm)
  · obtain ⟨entities, -, hclose, hstop, hlog⟩ := exists_stop hopen hreached.distinct
    exact ⟨entities, hstop, hclose ▸ lanes_closeLanes _, hlog⟩
  · have hclosed : drained.Closed := ⟨hstopped, hlanes⟩
    refine ⟨fun entity => ?_, ?_, fun event hevent => ?_, fun later => ?_⟩
    · have hentity := hqueue entity
      rwa [hclosed.queue, List.append_nil] at hentity
    · have hinFlight := hledger.inFlight
      rwa [queued, hlanes, List.flatMap_nil, List.length_nil, Nat.zero_add] at hinFlight
    · have hmem : event ∈ lost.filter (·.entity = event.entity) :=
        List.mem_filter.mpr ⟨hevent, decide_eq_true rfl⟩
      rcases hledger.losses.dies event.entity (List.ne_nil_of_mem hmem) with hdead | ⟨-, hlogged⟩
      · rw [isDead, host?, lane?, hlanes] at hdead
        cases hdead
      · exact hlogged
    · obtain ⟨hafter, hinFlight, hstate, hserved, hcalls⟩ := hclosed.through later
      exact ⟨dispatch_of_stopped hafter.stopped, hafter.deliver, stop_of_stopped hafter.stopped, hinFlight,
        hstate, hserved, by rw [diary_eq, hcalls]⟩

/-- Three events wait when the shutdown begins, on the lanes of two hosts. -/
def loadedRun : List (Activity Nat) :=
  [.register .vertex killing, .dispatch (.vertex ⟨0⟩ .init) (some ⟨0⟩),
    .dispatch (.vertex ⟨1⟩ .init) (some ⟨1⟩), .dispatch (.vertex ⟨0⟩ .start) none]

/-- One of the hosts goes away on the way, and one more dispatch is refused. -/
def unloadingRun : List (Activity Nat) :=
  [.deliver (.vertex ⟨0⟩), .lose ⟨1⟩, .dispatch (.vertex ⟨2⟩ .init) (some ⟨0⟩), .close (.vertex ⟨1⟩),
    .deliver (.vertex ⟨0⟩), .close (.vertex ⟨0⟩)]

/-- The handlers break down in the shutdown, as nothing that they send is accepted, and both events of the
lane whose host stays are served none the less. That of the other lane stays in flight. -/
theorem stop_drains_loaded :
    let reached := (create 1 0).through loadedRun
    let drained := reached.refuse.through unloadingRun
    let accepted := ((create 1 0).diary loadedRun).filterMap Observation.accepted?
    reached.stopped = false ∧ drained.lanes = [] ∧ reached.stop.lanes = [] ∧
    accepted.filter (fun event => event.entity = .vertex ⟨0⟩) =
      [.vertex ⟨0⟩ .init, .vertex ⟨0⟩ .start] ++ [] ∧
    accepted.filter (fun event => event.entity = .vertex ⟨1⟩) = [] ++ [.vertex ⟨1⟩ .init] ∧
    drained.inFlight = 1 ∧ .laneDied (.vertex ⟨1⟩) ∈ drained.log := by
  intro reached drained accepted
  have hopen : reached.stopped = false := rfl
  have hlanes : drained.lanes = [] := rfl
  obtain ⟨-, -, -, -, -, -, -, -, -, -, -, hstop, -, -, hend⟩ := stop_drains 1 0 loadedRun unloadingRun
  obtain ⟨-, -, hclosed, -⟩ := hstop hopen
  obtain ⟨hserved, hinFlight, hdied, -⟩ := hend hlanes
  exact ⟨hopen, hlanes, hclosed, (hserved (.vertex ⟨0⟩)).trans rfl, (hserved (.vertex ⟨1⟩)).trans rfl,
    hinFlight.trans rfl, hdied (.vertex ⟨1⟩ .init) List.mem_cons_self⟩

/-- A handler that counts its events. -/
def counting : Handler Nat := fun count _ => .done (count + 1)

/-- The host goes away while an event waits. -/
def desertedRun : List (Activity Nat) :=
  [.register .vertex counting, .dispatch (.vertex ⟨0⟩ .init) (some ⟨0⟩), .lose ⟨0⟩]

/-- An event that was lost with the host is not served by a shutdown, and stays in flight for ever. A stop that
comes while another one still drains leaves behind an event that waits. -/
theorem stop_leaves_lost :
    ((create 1024 0).diary desertedRun).filterMap Observation.accepted? = [.vertex ⟨0⟩ .init] ∧
    (create 1024 0).along served desertedRun = [] ∧
    ((create 1024 0).through desertedRun).stopped = false ∧
    ((create 1024 0).through desertedRun).queued = 0 ∧
    ((create 1024 0).through desertedRun).stop.state = 0 ∧
    ((create 1024 0).through desertedRun).stop.inFlight = 1 ∧
    ((create 1024 0).through loadedRun).refuse.stop.queued = 3 ∧
    ((create 1024 0).through loadedRun).refuse.stop.inFlight = 3 :=
  ⟨rfl, rfl, rfl, rfl, rfl, rfl, rfl, rfl⟩

end Dispatcher

end JobFlow
