import JobFlow.Proofs.Dispatcher.Filling

/-!
The books of a dispatcher. Of the events that were accepted for an entity each is served, lost with the
host of its lane or still waiting, in this order, and each event that is served is handed once to the handler
that is responsible for its kind at that time. Main statement: every activity keeps the books.
-/

namespace JobFlow

variable {σ : Type}

namespace Lane

@[simp] theorem host_lose (lane : Lane) (host : HostId) : (lane.lose host).host = lane.host := by
  rw [lose]
  split
  next hhost => exact hhost.symm
  next => rfl

@[simp] theorem queue_lose (lane : Lane) (host : HostId) :
    (lane.lose host).queue = if lane.host = host then [] else lane.queue := by
  rw [lose]
  split <;> rfl

variable {lanes : List (Entity × Lane)}

theorem lookup_of_not_mem {entity : Entity} (hmissing : entity ∉ lanes.map (·.1)) :
    lanes.lookup entity = none := by
  rw [List.lookup_eq_none_iff]
  intro pair hpair
  simp only [bne_iff_ne, ne_eq]
  rintro rfl
  exact hmissing (List.mem_map_of_mem hpair)

/-- What waits for an entity is what waits on its lane. -/
theorem filter_flatMap_queue (hdistinct : (lanes.map (·.1)).Nodup)
    (hsorted : ∀ pair ∈ lanes, ∀ event ∈ pair.2.queue, event.entity = pair.1) (entity : Entity) :
    (lanes.flatMap (·.2.queue)).filter (·.entity = entity) =
      (lanes.lookup entity).elim [] (·.queue) := by
  induction lanes with
  | nil => rfl
  | cons pair rest ih =>
      obtain ⟨hfirst, hrest⟩ := List.forall_mem_cons.mp hsorted
      rw [List.map_cons, List.nodup_cons] at hdistinct
      rw [List.flatMap_cons, List.filter_append, ih hdistinct.2 hrest, Lane.lookup_cons]
      by_cases heq : entity = pair.1
      · subst heq
        rw [if_pos rfl, lookup_of_not_mem hdistinct.1, Option.elim_none, List.append_nil, Option.elim_some,
          List.filter_eq_self]
        exact fun event hevent => decide_eq_true (hfirst event hevent)
      · have hnone : pair.2.queue.filter (·.entity = entity) = [] := by
          rw [List.filter_eq_nil_iff]
          intro event hevent hsame
          exact heq ((of_decide_eq_true hsame).symm.trans (hfirst event hevent))
        rw [if_neg heq, hnone, List.nil_append]

theorem lookup_filter_host (hdistinct : (lanes.map (·.1)).Nodup) (host : HostId) (entity : Entity) :
    (lanes.filter (·.2.host = host)).lookup entity = (lanes.lookup entity).filter (·.host = host) := by
  induction lanes with
  | nil => rfl
  | cons pair rest ih =>
      rw [List.map_cons, List.nodup_cons] at hdistinct
      have hrest := ih hdistinct.2
      by_cases hhost : pair.2.host = host
      · rw [List.filter_cons_of_pos (by simpa using hhost), lookup_cons, lookup_cons, hrest]
        split
        · rw [Option.filter_some, if_pos (decide_eq_true hhost)]
        · rfl
      · rw [List.filter_cons_of_neg (by simpa using hhost), lookup_cons, hrest]
        split
        next heq =>
          rw [heq, lookup_of_not_mem hdistinct.1, Option.filter_none, Option.filter_some,
            if_neg (by simpa using hhost)]
        next => rfl

theorem lookup_lose (host : HostId) (entity : Entity) :
    (lanes.map (fun (entity, lane) => (entity, lane.lose host))).lookup entity =
      (lanes.lookup entity).map (·.lose host) := by
  induction lanes with
  | nil => rfl
  | cons pair rest ih =>
      rw [List.map_cons, lookup_cons, lookup_cons, ih]
      by_cases heq : entity = pair.1
      · rw [if_pos heq, if_pos heq, Option.map_some]
      · rw [if_neg heq, if_neg heq]

theorem lookup_filter_ne (entity other : Entity) :
    (lanes.filter (·.1 ≠ entity)).lookup other =
      if other = entity then none else lanes.lookup other := by
  induction lanes with
  | nil => simp
  | cons pair rest ih =>
      by_cases heq : pair.1 = entity
      · rw [List.filter_cons_of_neg (by simpa using heq), ih, lookup_cons, heq]
        split <;> rfl
      · rw [List.filter_cons_of_pos (by simpa using heq), lookup_cons, lookup_cons, ih]
        grind

end Lane

namespace Dispatcher

variable {dispatcher : Dispatcher σ}

/-! ### When a host goes away -/

/-- What waits on the lanes that a host serves. -/
def waitingOn (dispatcher : Dispatcher σ) (host : HostId) : List Event :=
  (dispatcher.lanes.filter (·.2.host = host)).flatMap (·.2.queue)

/-- What waits for an entity waits on the host of its lane. -/
theorem filter_waitingOn (hdistinct : dispatcher.Distinct)
    (hsorted : ∀ entity, ∀ event ∈ dispatcher.queue entity, event.entity = entity) (host : HostId)
    (entity : Entity) : (dispatcher.waitingOn host).filter (·.entity = entity) =
      if dispatcher.host? entity = some host then dispatcher.queue entity else [] := by
  have hentities : ((dispatcher.lanes.filter (·.2.host = host)).map (·.1)).Nodup :=
    hdistinct.sublist (List.filter_sublist.map _)
  have hevents : ∀ pair ∈ dispatcher.lanes.filter (·.2.host = host),
      ∀ event ∈ pair.2.queue, event.entity = pair.1 := by
    intro pair hpair event hevent
    refine hsorted pair.1 event ?_
    rw [queue, lane?, Lane.lookup_of_mem hdistinct (List.mem_filter.mp hpair).1]
    exact hevent
  rw [waitingOn, Lane.filter_flatMap_queue hentities hevents, Lane.lookup_filter_host hdistinct, host?,
    queue, lane?]
  cases dispatcher.lanes.lookup entity with
  | none => rfl
  | some lane =>
      rw [Option.filter_some, Option.map_some]
      by_cases hhost : lane.host = host <;> simp [hhost]

theorem lane?_loseHost (dispatcher : Dispatcher σ) (host : HostId) (entity : Entity) :
    (dispatcher.loseHost host).lane? entity = (dispatcher.lane? entity).map (·.lose host) :=
  Lane.lookup_lose host entity

theorem host?_loseHost (dispatcher : Dispatcher σ) (host : HostId) (entity : Entity) :
    (dispatcher.loseHost host).host? entity = dispatcher.host? entity := by
  rw [host?, host?, lane?_loseHost]
  cases dispatcher.lane? entity with
  | none => rfl
  | some lane => exact congrArg some (lane.host_lose host)

theorem queue_loseHost (dispatcher : Dispatcher σ) (host : HostId) (entity : Entity) :
    (dispatcher.loseHost host).queue entity =
      if dispatcher.host? entity = some host then [] else dispatcher.queue entity := by
  rw [queue, queue, host?, lane?_loseHost]
  cases dispatcher.lane? entity with
  | none => rfl
  | some lane => simp

theorem isDead_loseHost (dispatcher : Dispatcher σ) (host : HostId) (entity : Entity) :
    (dispatcher.loseHost host).isDead entity = true ↔
      dispatcher.host? entity = some host ∨ dispatcher.isDead entity = true := by
  rw [isDead_iff, isDead_iff, host?_loseHost]
  constructor
  · rintro ⟨other, hgone, hhost⟩
    rcases List.mem_cons.mp hgone with rfl | hearlier
    · exact Or.inl hhost
    · exact Or.inr ⟨other, hearlier, hhost⟩
  · rintro (hhost | ⟨other, hgone, hhost⟩)
    · exact ⟨host, List.mem_cons_self, hhost⟩
    · exact ⟨other, List.mem_cons_of_mem host hgone, hhost⟩

theorem queued_loseHost (dispatcher : Dispatcher σ) (host : HostId) :
    (dispatcher.loseHost host).queued + (dispatcher.waitingOn host).length = dispatcher.queued := by
  rw [queued, queued, loseHost, waitingOn]
  dsimp only
  induction dispatcher.lanes with
  | nil => rfl
  | cons pair rest ih =>
      by_cases hhost : pair.2.host = host
      · rw [List.filter_cons_of_pos (by simpa using hhost)]
        simp only [List.map_cons, List.flatMap_cons, List.length_append, Lane.queue_lose, hhost, if_true,
          List.length_nil]
        omega
      · rw [List.filter_cons_of_neg (by simpa using hhost)]
        simp only [List.map_cons, List.flatMap_cons, List.length_append, Lane.queue_lose, hhost, if_false]
        omega

theorem distinct_loseHost (hdistinct : dispatcher.Distinct) (host : HostId) :
    (dispatcher.loseHost host).Distinct := by
  have hentities : (dispatcher.loseHost host).lanes.map (·.1) = dispatcher.lanes.map (·.1) := by
    rw [loseHost, List.map_map]
    rfl
  rw [Distinct, hentities]
  exact hdistinct

/-! ### When a lane is closed -/

theorem lane?_closeLane (dispatcher : Dispatcher σ) (entity other : Entity) :
    (dispatcher.closeLane entity).lane? other = if other = entity then none else dispatcher.lane? other :=
  Lane.lookup_filter_ne entity other

theorem host?_closeLane (dispatcher : Dispatcher σ) (entity other : Entity) :
    (dispatcher.closeLane entity).host? other = if other = entity then none else dispatcher.host? other := by
  rw [host?, host?, lane?_closeLane]
  split <;> rfl

/-- Nothing that waits is lost with a lane on which nothing waits. -/
theorem queue_closeLane {entity : Entity} (hempty : dispatcher.queue entity = []) (other : Entity) :
    (dispatcher.closeLane entity).queue other = dispatcher.queue other := by
  rw [queue, lane?_closeLane]
  split
  next heq => rw [heq, hempty, Option.elim_none]
  next => rfl

theorem queued_closeLane {entity : Entity} (hdistinct : dispatcher.Distinct)
    (hempty : dispatcher.queue entity = []) :
    (dispatcher.closeLane entity).queued = dispatcher.queued := by
  have hweight := Lane.weigh_filter (fun _ => 1) entity hdistinct
  have hqueue : (dispatcher.lanes.lookup entity).elim [] (·.queue) = [] := hempty
  rw [hqueue] at hweight
  rw [queued_eq_load, queued_eq_load]
  exact hweight

theorem distinct_closeLane (hdistinct : dispatcher.Distinct) (entity : Entity) :
    (dispatcher.closeLane entity).Distinct := hdistinct.sublist (List.filter_sublist.map _)

/-! ### The books -/

/-- The event that an activity hands to a handler, with the handler that is responsible for it. -/
def served (dispatcher : Dispatcher σ) : Activity σ → List (Event × Option (Handler σ))
  | .deliver entity =>
    (dispatcher.queue entity).head?.toList.map (fun event => (event, dispatcher.handlers event.kind))
  | .register _ _ | .dispatch _ _ | .refuse | .close _ | .lose _ => []

/-- The events that are lost with a host. -/
def lost (dispatcher : Dispatcher σ) : Activity σ → List Event
  | .lose host => dispatcher.waitingOn host
  | .register _ _ | .dispatch _ _ | .deliver _ | .refuse | .close _ => []

/-- Where events were lost nothing waits. The lane is there, dead, until a shutdown closes it and puts it into
the log. -/
structure Losses (dispatcher : Dispatcher σ) (lost : List Event) : Prop where
  dead : ∀ entity, dispatcher.isDead entity = true → dispatcher.queue entity = []
  silent : ∀ entity, lost.filter (·.entity = entity) ≠ [] → dispatcher.queue entity = []
  dies : ∀ entity, lost.filter (·.entity = entity) ≠ [] → dispatcher.isDead entity = true ∨
    dispatcher.stopped = true ∧ .laneDied entity ∈ dispatcher.log

namespace Losses

variable {lost : List Event} (h : dispatcher.Losses lost)

include h

theorem of_same {after : Dispatcher σ} (hgone : after.gone = dispatcher.gone)
    (hlanes : after.lanes = dispatcher.lanes) (hstopped : dispatcher.stopped = true → after.stopped = true)
    (hlog : dispatcher.log <+: after.log) : after.Losses lost := by
  have hqueue : ∀ entity, after.queue entity = dispatcher.queue entity := by
    intro entity
    rw [Dispatcher.queue, Dispatcher.queue, lane?, lane?, hlanes]
  have hdead : ∀ entity, after.isDead entity = dispatcher.isDead entity := by
    intro entity
    rw [isDead, isDead, host?, host?, lane?, lane?, hlanes, hgone]
  refine ⟨fun entity => ?_, fun entity => ?_, fun entity hlost => ?_⟩
  · rw [hqueue, hdead]
    exact h.dead entity
  · rw [hqueue]
    exact h.silent entity
  · rw [hdead]
    exact (h.dies entity hlost).imp_right (fun hclosed => ⟨hstopped hclosed.1, hlog.subset hclosed.2⟩)

/-- Nothing was lost where something waits. -/
theorem filter_eq_nil {entity : Entity} {event : Event} {rest : List Event}
    (hqueue : dispatcher.queue entity = event :: rest) : lost.filter (·.entity = entity) = [] := by
  by_contra hlost
  rw [h.silent entity hlost] at hqueue
  cases hqueue

theorem fills {caller : Option HostId} {sent : List Event} {after : Dispatcher σ}
    (hfills : dispatcher.Fills caller sent after) : after.Losses lost where
  dead _ hdead := hfills.queue_of_isDead h.dead hdead
  silent entity hlost := by
    have hsent : sent.filter (·.entity = entity) = [] := by
      cases hstopped : dispatcher.stopped with
      | true => rw [hfills.refused hstopped, List.filter_nil]
      | false =>
          refine hfills.dead entity (hfills.isDead_of_isDead ((h.dies entity hlost).resolve_right ?_))
          exact fun hclosed => Bool.false_ne_true (hstopped.symm.trans hclosed.1)
    rw [hfills.queue, h.silent entity hlost, hsent, List.append_nil]
  dies entity hlost := (h.dies entity hlost).imp hfills.isDead_of_isDead
    (fun hclosed => ⟨hfills.stopped.trans hclosed.1, hfills.log.subset hclosed.2⟩)

theorem popped {entity : Entity} {event : Event} {rest : List Event}
    (hqueue : dispatcher.queue entity = event :: rest) : (dispatcher.popped entity).Losses lost := by
  have hdead : ∀ other, (dispatcher.popped entity).isDead other = dispatcher.isDead other := by
    intro other
    rw [isDead, isDead, host?_popped, gone_popped]
  have hempty : ∀ other, dispatcher.queue other = [] → (dispatcher.popped entity).queue other = [] := by
    intro other hnone
    rw [queue_popped hqueue, if_neg, hnone]
    rintro rfl
    rw [hqueue] at hnone
    cases hnone
  refine ⟨fun other hother => ?_, fun other hlost => ?_, fun other hlost => ?_⟩
  · rw [hdead] at hother
    exact hempty other (h.dead other hother)
  · exact hempty other (h.silent other hlost)
  · rw [hdead, stopped_popped, log_popped]
    exact h.dies other hlost

theorem close (hstopped : dispatcher.stopped = true) {entity : Entity}
    (hempty : dispatcher.queue entity = []) : (dispatcher.closeLane entity).Losses lost where
  dead other hdead := by
    rw [isDead, host?_closeLane] at hdead
    rw [queue_closeLane hempty]
    split at hdead
    next => cases hdead
    next => exact h.dead other hdead
  silent other hlost := (queue_closeLane hempty other).trans (h.silent other hlost)
  dies other hlost := by
    rcases h.dies other hlost with hdead | ⟨-, hlogged⟩
    · by_cases hother : other = entity
      · subst hother
        refine Or.inr ⟨hstopped, List.mem_append_right _ ?_⟩
        rw [if_pos hdead]
        exact List.mem_singleton.mpr rfl
      · refine Or.inl ?_
        rw [isDead, host?_closeLane, if_neg hother]
        exact hdead
    · exact Or.inr ⟨hstopped, List.mem_append_left _ hlogged⟩

end Losses

/-- The books of a dispatcher: what the diary tells of, what was served and what was lost. -/
structure Ledger (dispatcher : Dispatcher σ) (diary : List (Observation σ))
    (served : List (Event × Option (Handler σ))) (lost : List Event) : Prop where
  queue : ∀ entity, (diary.filterMap Observation.accepted?).filter (·.entity = entity) =
    (served.map (·.1)).filter (·.entity = entity) ++ lost.filter (·.entity = entity) ++
      dispatcher.queue entity
  calls : diary.filterMap Observation.call? =
    served.flatMap (fun (event, handler) => handler.toList.map (·, event))
  inFlight : dispatcher.inFlight = dispatcher.queued + lost.length
  distinct : dispatcher.Distinct
  losses : dispatcher.Losses lost
  unknown : dispatcher.stopped = false → dispatcher.gone = [] → ∀ entity,
    dispatcher.host? entity = none ↔ (diary.filterMap Observation.accepted?).filter (·.entity = entity) = []

theorem ledger_create (threshold : Nat) (state : σ) : (create threshold state).Ledger [] [] [] where
  queue _ := rfl
  calls := rfl
  inFlight := rfl
  distinct := List.nodup_nil
  losses := ⟨fun _ _ => rfl, fun _ _ => rfl, fun _ hlost => absurd rfl hlost⟩
  unknown _ _ _ := iff_of_true rfl rfl

namespace Ledger

variable {diary : List (Observation σ)} {served : List (Event × Option (Handler σ))} {lost : List Event}
  (h : dispatcher.Ledger diary served lost)

include h

theorem sorted {entity : Entity} {event : Event} (hevent : event ∈ dispatcher.queue entity) :
    event.entity = entity := by
  have hmem : event ∈ (diary.filterMap Observation.accepted?).filter (·.entity = entity) := by
    rw [h.queue]
    exact List.mem_append_right _ hevent
  exact of_decide_eq_true (List.mem_filter.mp hmem).2

/-- A change that leaves the lanes alone, and may begin a shutdown. -/
theorem of_same {after : Dispatcher σ} (hgone : after.gone = dispatcher.gone)
    (hlanes : after.lanes = dispatcher.lanes) (hinFlight : after.inFlight = dispatcher.inFlight)
    (hstopped : dispatcher.stopped = true → after.stopped = true) (hlog : dispatcher.log <+: after.log) :
    after.Ledger diary served lost := by
  refine ⟨fun entity => ?_, h.calls, ?_, ?_, h.losses.of_same hgone hlanes hstopped hlog,
    fun hopen hnobody entity => ?_⟩
  · rw [Dispatcher.queue, lane?, hlanes]
    exact h.queue entity
  · rw [hinFlight, Dispatcher.queued, hlanes]
    exact h.inFlight
  · rw [Distinct, hlanes]
    exact h.distinct
  · have hbefore : dispatcher.stopped = false := by
      by_contra hbegun
      rw [hstopped (Bool.eq_true_of_not_eq_false hbegun)] at hopen
      cases hopen
    rw [host?, lane?, hlanes]
    exact h.unknown hbefore (hgone.symm.trans hnobody) entity

/-- The lanes that there are after some events were accepted are those for which something ever was. -/
theorem unknown_fills {caller : Option HostId} {sent : List Event} {before after : Dispatcher σ}
    (hhost : ∀ entity, before.host? entity = dispatcher.host? entity)
    (hstopped : before.stopped = dispatcher.stopped) (hgone : before.gone = dispatcher.gone)
    (hfills : before.Fills caller sent after) (hopen : after.stopped = false) (hnobody : after.gone = [])
    (entity : Entity) : after.host? entity = none ↔
      (diary.filterMap Observation.accepted? ++ sent).filter (·.entity = entity) = [] := by
  have hbefore := h.unknown (hstopped.symm.trans (hfills.stopped.symm.trans hopen))
    (hgone.symm.trans (hfills.gone.symm.trans hnobody)) entity
  rw [← hhost] at hbefore
  rw [List.filter_append, List.append_eq_nil_iff, ← hbefore]
  constructor
  · intro hnone
    refine ⟨?_, hfills.unknown entity hnone⟩
    rcases hfills.host entity with hsame | ⟨hfirst, -⟩
    · exact hsame.symm.trans hnone
    · exact hfirst
  · exact fun ⟨hfirst, hsent⟩ => hfills.known (hfills.gone.symm.trans hnobody) entity hfirst hsent

/-- A dispatch from outside is written down, and accepted behind what waits for the entity. -/
theorem dispatch (event : Event) (caller : Option HostId) : (dispatcher.dispatch event caller).1.Ledger
    (diary ++ [.answered event (dispatcher.dispatch event caller).2]) served lost := by
  have hfills := dispatcher.fills_dispatch event caller
  generalize hnoted : ([.answered event (dispatcher.dispatch event caller).2] :
    List (Observation σ)) = noted at hfills ⊢
  have hcall : noted.filterMap Observation.call? = [] := by rw [← hnoted]; rfl
  generalize (dispatcher.dispatch event caller).1 = after at hfills ⊢
  refine ⟨fun entity => ?_, ?_, ?_, hfills.distinct h.distinct, h.losses.fills hfills,
    fun hopen hnobody entity => ?_⟩
  · rw [List.filterMap_append, List.filter_append, h.queue, hfills.queue]
    simp only [List.append_assoc]
  · rw [List.filterMap_append, hcall, List.append_nil]
    exact h.calls
  · rw [hfills.inFlight, hfills.queued h.distinct, h.inFlight]
    omega
  · rw [List.filterMap_append]
    exact h.unknown_fills (fun _ => rfl) rfl rfl hfills hopen hnobody entity

/-- A delivery serves the first event of a lane, and what its handler sends is accepted. -/
theorem deliver {entity : Entity} {event : Event} {rest : List Event}
    (hqueue : dispatcher.queue entity = event :: rest) : (dispatcher.deliver entity).Ledger
      (diary ++ (dispatcher.popped entity).handling (dispatcher.host? entity) event)
      (served ++ [(event, dispatcher.handlers event.kind)]) lost := by
  have hlost := h.losses.filter_eq_nil hqueue
  have hentity : event.entity = entity := h.sorted (hqueue ▸ List.mem_cons_self)
  have hqueued := queued_popped hqueue
  have hdistinct := distinct_popped hqueue h.distinct
  have hfills := (dispatcher.popped entity).fills_handle (dispatcher.host? entity) event
  have hlosses := (h.losses.popped hqueue).fills hfills
  rw [deliver_eq hqueue]
  refine ⟨fun other => ?_, ?_, ?_, hfills.distinct hdistinct,
    hlosses.of_same rfl rfl id List.prefix_rfl, fun hopen hnobody other => ?_⟩
  · show _ = _ ++ ((dispatcher.popped entity).handle (dispatcher.host? entity) event).queue other
    rw [List.filterMap_append, List.filter_append, h.queue, hfills.queue, queue_popped hqueue,
      List.map_append, List.filter_append]
    by_cases hother : other = entity
    · subst hother
      simp [hqueue, hentity, hlost]
    · have hne : ¬ event.entity = other := fun heq => hother (heq.symm.trans hentity)
      simp [hother, hne]
  · rw [List.filterMap_append, calls_handling, h.calls, handlers_popped, List.flatMap_append]
    simp
  · show ((dispatcher.popped entity).handle (dispatcher.host? entity) event).inFlight - 1 =
      ((dispatcher.popped entity).handle (dispatcher.host? entity) event).queued + lost.length
    rw [hfills.inFlight, hfills.queued hdistinct, inFlight_popped, h.inFlight]
    omega
  · rw [List.filterMap_append]
    exact h.unknown_fills (host?_popped _ _) (stopped_popped _ _) (gone_popped _ _) hfills hopen hnobody
      other

/-- With a lane that is closed in a shutdown nothing is lost. -/
theorem close (hstopped : dispatcher.stopped = true) {entity : Entity}
    (hempty : dispatcher.queue entity = []) : (dispatcher.closeLane entity).Ledger diary served lost where
  queue other := by
    rw [queue_closeLane hempty]
    exact h.queue other
  calls := h.calls
  inFlight := by
    rw [queued_closeLane h.distinct hempty]
    exact h.inFlight
  distinct := distinct_closeLane h.distinct entity
  losses := h.losses.close hstopped hempty
  unknown hopen := absurd (hstopped.symm.trans hopen) (by decide)

/-- What waits on the lanes of a host is lost with it. -/
theorem lose (host : HostId) :
    (dispatcher.loseHost host).Ledger diary served (lost ++ dispatcher.waitingOn host) := by
  have hwaiting := filter_waitingOn h.distinct (fun _ _ => h.sorted) host
  have hqueue := dispatcher.queue_loseHost host
  refine ⟨fun entity => ?_, h.calls, ?_, distinct_loseHost h.distinct host,
    ⟨fun entity hdead => ?_, fun entity hlost => ?_, fun entity hlost => ?_⟩,
    fun _ hnobody => by cases hnobody⟩
  · rw [List.filter_append, hwaiting, hqueue, h.queue]
    split <;> simp only [List.append_assoc, List.append_nil]
  · have hqueued := dispatcher.queued_loseHost host
    rw [List.length_append]
    show dispatcher.inFlight = _
    rw [h.inFlight]
    omega
  · rw [hqueue]
    split
    next => rfl
    next hother =>
      exact h.losses.dead entity (((dispatcher.isDead_loseHost host entity).mp hdead).resolve_left hother)
  · rw [hqueue]
    split
    next => rfl
    next hother =>
      rw [List.filter_append, hwaiting, if_neg hother, List.append_nil] at hlost
      exact h.losses.silent entity hlost
  · rw [isDead_loseHost]
    by_cases hhost : dispatcher.host? entity = some host
    · exact Or.inl (Or.inl hhost)
    · rw [List.filter_append, hwaiting, if_neg hhost, List.append_nil] at hlost
      exact (h.losses.dies entity hlost).imp_left Or.inr

/-- Every activity keeps the books. -/
theorem act (activity : Activity σ) : (dispatcher.act activity).Ledger (diary ++ dispatcher.observed activity)
    (served ++ dispatcher.served activity) (lost ++ dispatcher.lost activity) := by
  cases activity with
  | register kind handler =>
      simp only [observed, Dispatcher.served, Dispatcher.lost, List.append_nil]
      exact h.of_same rfl rfl rfl id (List.prefix_append _ _)
  | dispatch event caller =>
      simp only [observed, Dispatcher.served, Dispatcher.lost, List.append_nil]
      exact h.dispatch event caller
  | deliver entity =>
      simp only [observed, Dispatcher.served, Dispatcher.lost, List.append_nil]
      show (dispatcher.deliver entity).Ledger _ _ _
      cases hqueue : dispatcher.queue entity with
      | nil =>
          rw [deliver_of_queue_eq_nil hqueue]
          simpa using h
      | cons event rest =>
          have hdeliver := h.deliver hqueue
          simpa using hdeliver
  | refuse =>
      simp only [observed, Dispatcher.served, Dispatcher.lost, List.append_nil]
      exact h.of_same rfl rfl rfl (fun _ => rfl) List.prefix_rfl
  | close entity =>
      simp only [observed, Dispatcher.served, Dispatcher.lost, List.append_nil, Dispatcher.act]
      split
      next hclose => exact h.close hclose.1 hclose.2
      next => exact h
  | lose host =>
      simp only [observed, Dispatcher.served, Dispatcher.lost, List.append_nil]
      exact h.lose host

theorem run (activities : List (Activity σ)) : (dispatcher.through activities).Ledger
    (diary ++ dispatcher.along observed activities)
    (served ++ dispatcher.along Dispatcher.served activities)
    (lost ++ dispatcher.along Dispatcher.lost activities) := by
  induction activities generalizing dispatcher diary served lost with
  | nil => simpa [along, through] using h
  | cons first rest ih =>
      have hrest := ih (h.act first)
      simp only [List.append_assoc] at hrest
      exact hrest

end Ledger

end Dispatcher

end JobFlow
