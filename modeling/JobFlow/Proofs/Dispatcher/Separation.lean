import JobFlow.Proofs.Dispatcher.Ledger

/-!
Lanes that are kept apart. A dispatcher may have lanes of its own and others that are foreign to it, whose
events mean nothing to its handlers but warnings. Foreign events are accepted, wait, count as in flight and
are delivered like any others. Main statement: with all that is done to foreign lanes left out of a run, the
rest of the run takes place as before.
-/

namespace JobFlow

variable {σ : Type}

/-- A handler that appoints no handlers and does not ask how many events are in flight. -/
def Action.Discreet : Action σ → Prop
  | .done _ | .abort _ => True
  | .warn _ next => next.Discreet
  | .dispatch _ next => ∀ answer, (next answer).Discreet
  | .register _ _ _ | .inspect _ => False

theorem Action.discreet_ofStep (step : Step σ) : (Action.ofStep step).Discreet := by
  obtain ⟨machine, outbound, notices⟩ := step
  have hsends : (Action.dispatchAll outbound (.done machine)).Discreet := by
    induction outbound with
    | nil => trivial
    | cons first rest ih =>
        intro answer
        cases answer with
        | ok => exact ih
        | error refusal => exact ih
  rw [ofStep, warnAll]
  dsimp only
  induction notices with
  | nil => exact hsends
  | cons first rest ih => exact ih

/-- Whether an activity concerns the lanes that are a dispatcher's own, as all do that concern no lane in
particular. -/
def Activity.concerns (own : Entity → Bool) : Activity σ → Bool
  | .dispatch event _ => own event.entity
  | .deliver entity | .close entity => own entity
  | .register _ _ | .refuse | .lose _ => true

namespace Dispatcher

/-- What is noted of the activities that concern the lanes that are a dispatcher's own. -/
def ofOwn {β : Type} (own : Entity → Bool) (note : Dispatcher σ → Activity σ → List β) :
    Dispatcher σ → Activity σ → List β :=
  fun dispatcher activity => if activity.concerns own then note dispatcher activity else []

/-- Two dispatchers that differ in nothing but their logs, their counts of what is in flight and the lanes
that are foreign to them. -/
structure Agrees (own : Entity → Bool) (left right : Dispatcher σ) : Prop where
  handlers : left.handlers = right.handlers
  state : left.state = right.state
  stopped : left.stopped = right.stopped
  gone : left.gone = right.gone
  queue : ∀ entity, own entity = true → left.queue entity = right.queue entity
  host : ∀ entity, own entity = true → left.host? entity = right.host? entity

/-- A dispatcher with no hosts gone but some that may be lost, each of which then serves all lanes there are. -/
structure Housed (lost : HostId → Prop) (dispatcher : Dispatcher σ) : Prop where
  gone : ∀ host ∈ dispatcher.gone, lost host
  alone : ∀ entity host, dispatcher.host? entity = some host → ∀ other, lost other → host = other

/-- A dispatcher whose handlers are discreet and have nothing but warnings for foreign events. While
anything waits there, every host is. -/
structure Sealed (own : Entity → Bool) (dispatcher : Dispatcher σ) : Prop where
  discreet : ∀ event handler, dispatcher.handlers event.kind = some handler →
    (handler dispatcher.state event).Discreet
  ignores : ∀ event handler, own event.entity = false → dispatcher.handlers event.kind = some handler →
    ∃ notices, handler dispatcher.state event = .warnAll notices (.done dispatcher.state)
  sorted : ∀ entity, ∀ event ∈ dispatcher.queue entity, event.entity = entity
  attended : ∀ entity, dispatcher.queue entity ≠ [] → dispatcher.gone = []

variable {own : Entity → Bool} {left right dispatcher : Dispatcher σ}

theorem Agrees.refl (own : Entity → Bool) (dispatcher : Dispatcher σ) : dispatcher.Agrees own dispatcher :=
  ⟨rfl, rfl, rfl, rfl, fun _ _ => rfl, fun _ _ => rfl⟩

/-! ### The hosts of a run -/

section Housed

variable {lost : HostId → Prop} (h : dispatcher.Housed lost)

include h

/-- As long as anything waits no host is gone, as with the only host of the lanes all would have died. -/
theorem Housed.gone_of_queue (hdead : ∀ entity, dispatcher.isDead entity = true → dispatcher.queue entity = [])
    {entity : Entity} (hwaiting : dispatcher.queue entity ≠ []) : dispatcher.gone = [] := by
  rw [List.eq_nil_iff_forall_not_mem]
  intro host hgone
  refine hwaiting (hdead entity (isDead_iff.mpr ⟨host, hgone, ?_⟩))
  obtain ⟨event, rest, hqueue⟩ := List.exists_cons_of_ne_nil hwaiting
  obtain ⟨other, hother⟩ := exists_host hqueue
  rw [hother, h.alone entity other hother host (h.gone host hgone)]

theorem Housed.of_same {after : Dispatcher σ} (hgone : after.gone = dispatcher.gone)
    (hlanes : after.lanes = dispatcher.lanes) : after.Housed lost where
  gone := hgone ▸ h.gone
  alone entity host hhost := by
    rw [host?, lane?, hlanes] at hhost
    exact h.alone entity host hhost

theorem Housed.fills {caller : Option HostId} {sent : List Event} {after : Dispatcher σ}
    (hfills : dispatcher.Fills caller sent after)
    (hcaller : ∀ host ∈ caller, ∀ other, lost other → host = other) : after.Housed lost where
  gone := hfills.gone ▸ h.gone
  alone entity host hhost := by
    rcases hfills.host entity with hsame | ⟨-, hnew⟩
    · exact h.alone entity host (hsame.symm.trans hhost)
    · exact hcaller host (hnew.symm.trans hhost)

/-- The host that may be lost serves all lanes as long as it alone is where events come from. -/
theorem Housed.act {activity : Activity σ} (hlose : ∀ host, activity = .lose host → lost host)
    (hcaller : ∀ event host, activity = .dispatch event (some host) → ∀ other, lost other → host = other) :
    (dispatcher.act activity).Housed lost := by
  cases activity with
  | register kind handler => exact h.of_same rfl rfl
  | dispatch event caller =>
      refine h.fills (dispatcher.fills_dispatch event caller) (fun host hhost => ?_)
      cases hhost
      exact hcaller event host rfl
  | deliver entity =>
      rw [Dispatcher.act]
      cases hqueue : dispatcher.queue entity with
      | nil => rwa [deliver_of_queue_eq_nil hqueue]
      | cons event rest =>
          have hpopped : (dispatcher.popped entity).Housed lost := by
            refine ⟨(gone_popped dispatcher entity).symm ▸ h.gone, fun other host hhost => ?_⟩
            rw [host?_popped] at hhost
            exact h.alone other host hhost
          have hfills := (dispatcher.popped entity).fills_handle (dispatcher.host? entity) event
          rw [deliver_eq hqueue]
          exact (hpopped.fills hfills (fun host hhost => h.alone entity host hhost)).of_same rfl rfl
  | refuse => exact h.of_same rfl rfl
  | close entity =>
      rw [Dispatcher.act]
      split
      · refine ⟨h.gone, fun other host hhost => ?_⟩
        rw [host?_closeLane] at hhost
        split at hhost
        · cases hhost
        · exact h.alone other host hhost
      · exact h
  | lose host =>
      refine ⟨fun other hgone => ?_, fun entity other hhost => ?_⟩
      · rcases List.mem_cons.mp hgone with rfl | hearlier
        · exact hlose other rfl
        · exact h.gone other hearlier
      · rw [Dispatcher.act, host?_loseHost] at hhost
        exact h.alone entity other hhost

end Housed

/-! ### One dispatch -/

/-- Events that were accepted on both sides keep an agreement if those on a dispatcher's own lanes are the
same. -/
theorem Agrees.of_fills (h : left.Agrees own right) (hgone : left.gone = []) {caller : Option HostId}
    {after other : Dispatcher σ} {sent others : List Event} (hleft : left.Fills caller sent after)
    (hright : right.Fills caller others other) (hsent : ∀ entity, own entity = true →
      sent.filter (·.entity = entity) = others.filter (·.entity = entity))
    (hhandlers : after.handlers = other.handlers) (hstate : after.state = other.state) :
    after.Agrees own other where
  handlers := hhandlers
  state := hstate
  stopped := by rw [hleft.stopped, hright.stopped, h.stopped]
  gone := by rw [hleft.gone, hright.gone, h.gone]
  queue entity hown := by rw [hleft.queue, hright.queue, h.queue entity hown, hsent entity hown]
  host entity hown := by
    have hsame := h.host entity hown
    cases hbefore : left.host? entity with
    | some host =>
        have hsome : left.host? entity ≠ none := by
          rw [hbefore]
          exact Option.some_ne_none host
        rw [hleft.host_of_ne_none hsome, hright.host_of_ne_none (hsame ▸ hsome), hsame]
    | none =>
        -- A lane is opened, on the host of the caller, exactly if something was sent to it.
        have hbefore' := hsame.symm.trans hbefore
        by_cases hnone : sent.filter (·.entity = entity) = []
        · rw [hleft.known hgone entity hbefore hnone,
            hright.known (h.gone.symm.trans hgone) entity hbefore' (hsent entity hown ▸ hnone)]
        · have hopened := mt (hleft.unknown entity) hnone
          have hopened' := mt (hright.unknown entity) (hsent entity hown ▸ hnone)
          rw [((hleft.host entity).resolve_left (fun heq => hopened (heq.trans hbefore))).2,
            ((hright.host entity).resolve_left (fun heq => hopened' (heq.trans hbefore'))).2]

/-- A dispatch to a lane of its own is answered the same. -/
theorem Agrees.answer (h : left.Agrees own right) {event : Event} (hown : own event.entity = true)
    (caller : Option HostId) : (left.dispatch event caller).2 = (right.dispatch event caller).2 := by
  rw [answer_eq, answer_eq, h.stopped, h.gone, h.host _ hown]

theorem Agrees.dispatch (h : left.Agrees own right) {event : Event} (hown : own event.entity = true)
    (caller : Option HostId) : (left.dispatch event caller).1.Agrees own (right.dispatch event caller).1 := by
  have hanswer := h.answer hown caller
  obtain ⟨hhandlers, hstate, hgone⟩ := left.dispatch_keeps event caller
  obtain ⟨hhandlers', hstate', hgone'⟩ := right.dispatch_keeps event caller
  have hfills := left.fills_dispatch event caller
  have hfills' := right.fills_dispatch event caller
  constructor
  · rw [hhandlers, hhandlers', h.handlers]
  · rw [hstate, hstate', h.state]
  · rw [hfills.stopped, hfills'.stopped, h.stopped]
  · rw [hgone, hgone', h.gone]
  · intro entity hentity
    rw [hfills.queue, hfills'.queue, h.queue entity hentity, hanswer]
  · intro entity hentity
    rw [host?_dispatch, host?_dispatch, h.stopped, h.host entity hentity]

/-! ### One delivery -/

/-- The acts of a discreet handler are the same wherever every host is there and all or nothing is refused. -/
theorem perform_of_discreet {action : Action σ} (hdiscreet : action.Discreet) (hleft : left.gone = [])
    (hright : right.gone = []) (hstopped : left.stopped = right.stopped) (host : HostId) (event : Event) :
    left.answers (some host) action = right.answers (some host) action ∧
      (left.perform (some host) event action).state = (right.perform (some host) event action).state ∧
      (left.perform (some host) event action).handlers = left.handlers := by
  induction action generalizing left right with
  | done state => exact ⟨rfl, rfl, rfl⟩
  | abort state => exact ⟨rfl, rfl, rfl⟩
  | warn notice next ih =>
      have hnoted : (left.note [notice]).gone = [] := hleft
      have hnoted' : (right.note [notice]).gone = [] := hright
      exact ih hdiscreet hnoted hnoted' hstopped
  | dispatch sent next ih =>
      have hanswer : (left.dispatch sent (some host)).2 = (right.dispatch sent (some host)).2 := by
        rw [answer_of_gone hleft, answer_of_gone hright, hstopped]
        simp
      have hfills := left.fills_dispatch sent (some host)
      have hfills' := right.fills_dispatch sent (some host)
      obtain ⟨hanswers, hstate, hhandlers⟩ := ih (left.dispatch sent (some host)).2 (hdiscreet _)
        (hfills.gone.trans hleft) (hfills'.gone.trans hright)
        (hfills.stopped.trans (hstopped.trans hfills'.stopped.symm))
      rw [answers_dispatch, answers_dispatch, perform, perform]
      dsimp only
      rw [← hanswer]
      exact ⟨congrArg _ hanswers, hstate, hhandlers.trans (left.dispatch_keeps sent (some host)).1⟩
  | register => exact hdiscreet.elim
  | inspect => exact hdiscreet.elim

/-- An event of whatever lane is handled the same on both sides. -/
theorem Agrees.handle (h : left.Agrees own right) (hgone : left.gone = []) {event : Event}
    (hdiscreet : ∀ handler, left.handlers event.kind = some handler → (handler left.state event).Discreet)
    (host : HostId) : left.handling (some host) event = right.handling (some host) event ∧
      (left.handle (some host) event).Agrees own (right.handle (some host) event) := by
  have hgone' := h.gone.symm.trans hgone
  have hhandling : left.handling (some host) event = right.handling (some host) event ∧
      (left.handle (some host) event).state = (right.handle (some host) event).state ∧
      (left.handle (some host) event).handlers = left.handlers ∧
      (right.handle (some host) event).handlers = right.handlers := by
    simp only [handling, Dispatcher.handle, ← h.handlers, ← h.state]
    cases hhandler : left.handlers event.kind with
    | none => exact ⟨rfl, h.state, rfl, h.handlers.symm⟩
    | some handler =>
        have hacts := hdiscreet handler hhandler
        obtain ⟨hanswers, hstate, hhandlers⟩ := perform_of_discreet hacts hgone hgone' h.stopped host event
        obtain ⟨-, -, hhandlers'⟩ := perform_of_discreet hacts hgone' hgone h.stopped.symm host event
        exact ⟨congrArg _ hanswers, hstate, hhandlers, hhandlers'.trans h.handlers.symm⟩
  obtain ⟨hsame, hstate, hhandlers, hhandlers'⟩ := hhandling
  have hfills := left.fills_handle (some host) event
  have hfills' := right.fills_handle (some host) event
  refine ⟨hsame, h.of_fills hgone hfills hfills' (fun entity _ => by rw [hsame]) ?_ hstate⟩
  rw [hhandlers, hhandlers', h.handlers]

theorem note_nil (dispatcher : Dispatcher σ) : dispatcher.note [] = dispatcher := by
  simp only [note, List.append_nil]

theorem perform_warnAll (dispatcher : Dispatcher σ) (caller : Option HostId) (event : Event)
    (notices : List Notice) : dispatcher.perform caller event (.warnAll notices (.done dispatcher.state)) =
      dispatcher.note notices := by
  induction notices generalizing dispatcher with
  | nil => exact dispatcher.note_nil.symm
  | cons first rest ih =>
      have hnote : (dispatcher.note [first]).note rest = dispatcher.note (first :: rest) := by simp [note]
      rw [← hnote]
      exact ih (dispatcher.note [first])

/-- A foreign event leaves nothing behind but warnings. -/
theorem Sealed.handle (hsealed : dispatcher.Sealed own) {event : Event} (hforeign : own event.entity = false)
    (caller : Option HostId) (entity : Entity) : ∃ notices,
      (dispatcher.popped entity).handle caller event = (dispatcher.popped entity).note notices := by
  rw [Dispatcher.handle, handlers_popped, state_popped]
  cases hhandler : dispatcher.handlers event.kind with
  | none => exact ⟨[], (note_nil _).symm⟩
  | some handler =>
      obtain ⟨notices, hwarns⟩ := hsealed.ignores event handler hforeign hhandler
      have hperform := (dispatcher.popped entity).perform_warnAll caller event notices
      rw [state_popped] at hperform
      exact ⟨notices, by dsimp only; rw [hwarns, hperform]⟩

theorem Agrees.deliver (h : left.Agrees own right) (hleft : left.Sealed own) {entity : Entity}
    (hown : own entity = true) : left.observed (.deliver entity) = right.observed (.deliver entity) ∧
      left.served (.deliver entity) = right.served (.deliver entity) ∧
      (left.deliver entity).Agrees own (right.deliver entity) := by
  have hsame := h.queue entity hown
  have hserved : left.served (.deliver entity) = right.served (.deliver entity) := by
    rw [served, served, hsame, h.handlers]
  rw [observed, observed]
  cases hqueue : left.queue entity with
  | nil =>
      have hqueue' := hsame.symm.trans hqueue
      rw [hqueue', deliver_of_queue_eq_nil hqueue, deliver_of_queue_eq_nil hqueue']
      exact ⟨rfl, hserved, h⟩
  | cons event rest =>
      have hqueue' := hsame.symm.trans hqueue
      obtain ⟨host, hhost⟩ := exists_host hqueue
      have hgone : left.gone = [] := hleft.attended entity (by simp [hqueue])
      have hpopped : (left.popped entity).Agrees own (right.popped entity) := by
        constructor
        · rw [handlers_popped, handlers_popped, h.handlers]
        · rw [state_popped, state_popped, h.state]
        · rw [stopped_popped, stopped_popped, h.stopped]
        · rw [gone_popped, gone_popped, h.gone]
        · intro other hother
          rw [queue_popped hqueue, queue_popped hqueue', h.queue other hother]
        · intro other hother
          rw [host?_popped, host?_popped, h.host other hother]
      have hdiscreet : ∀ handler, (left.popped entity).handlers event.kind = some handler →
          (handler (left.popped entity).state event).Discreet := by
        rw [handlers_popped, state_popped]
        exact hleft.discreet event
      obtain ⟨hhandling, hhandled⟩ :=
        hpopped.handle ((gone_popped left entity).trans hgone) hdiscreet host
      rw [hqueue', deliver_eq hqueue, deliver_eq hqueue', ← h.host entity hown, hhost]
      refine ⟨by simpa using hhandling, hserved, ?_⟩
      exact ⟨hhandled.handlers, hhandled.state, hhandled.stopped, hhandled.gone, hhandled.queue,
        hhandled.host⟩

/-! ### Any activity -/

/-- A lane is closed on both sides, if on one. -/
theorem Agrees.close (h : left.Agrees own right) {entity : Entity} (hown : own entity = true) :
    (left.act (.close entity)).Agrees own (right.act (.close entity)) := by
  rw [Dispatcher.act, Dispatcher.act, ← h.stopped, ← h.queue entity hown]
  split
  next hclose =>
    have hempty := (h.queue entity hown).symm.trans hclose.2
    refine ⟨h.handlers, h.state, h.stopped, h.gone, fun other hother => ?_, fun other hother => ?_⟩
    · rw [queue_closeLane hclose.2, queue_closeLane hempty, h.queue other hother]
    · rw [host?_closeLane, host?_closeLane, h.host other hother]
  next => exact h

theorem Agrees.lose (h : left.Agrees own right) (host : HostId) :
    (left.loseHost host).Agrees own (right.loseHost host) where
  handlers := h.handlers
  state := h.state
  stopped := h.stopped
  gone := congrArg (host :: ·) h.gone
  queue entity hown := by rw [queue_loseHost, queue_loseHost, h.queue entity hown, h.host entity hown]
  host entity hown := by rw [host?_loseHost, host?_loseHost, h.host entity hown]

/-- What concerns its own lanes is done on both sides, to the same effect. -/
theorem Agrees.act (h : left.Agrees own right) (hleft : left.Sealed own) {activity : Activity σ}
    (hconcerns : activity.concerns own = true)
    (hregister : ∀ kind handler, activity ≠ .register kind handler) :
    left.observed activity = right.observed activity ∧ left.served activity = right.served activity ∧
      (left.act activity).Agrees own (right.act activity) := by
  cases activity with
  | register kind handler => exact absurd rfl (hregister kind handler)
  | dispatch event caller =>
      refine ⟨?_, rfl, h.dispatch hconcerns caller⟩
      rw [observed, observed, h.answer hconcerns caller]
  | deliver entity => exact h.deliver hleft hconcerns
  | refuse => exact ⟨rfl, rfl, h.handlers, h.state, rfl, h.gone, h.queue, h.host⟩
  | close entity => exact ⟨rfl, rfl, h.close hconcerns⟩
  | lose host => exact ⟨rfl, rfl, h.lose host⟩

/-- What is done to foreign lanes on one side makes no difference. -/
theorem Agrees.act_foreign (h : left.Agrees own right) (hleft : left.Sealed own) {activity : Activity σ}
    (hforeign : activity.concerns own = false) : (left.act activity).Agrees own right := by
  have hother : ∀ {entity}, own entity = false → ∀ other, own other = true → other ≠ entity := by
    rintro entity hentity other hown rfl
    exact absurd (hown.symm.trans hentity) (by decide)
  cases activity with
  | register | refuse | lose => cases hforeign
  | dispatch event caller =>
      obtain ⟨hhandlers, hstate, hgone⟩ := left.dispatch_keeps event caller
      have hfills := left.fills_dispatch event caller
      refine ⟨hhandlers.trans h.handlers, hstate.trans h.state, hfills.stopped.trans h.stopped,
        hgone.trans h.gone, fun entity hown => ?_, fun entity hown => ?_⟩
      · have hne := (hother hforeign entity hown).symm
        rw [Dispatcher.act, hfills.queue, h.queue entity hown]
        rcases (left.dispatch event caller).2 with refusal | accepted
        · exact List.append_nil _
        · simp [Observation.accepted?, hne]
      · rw [Dispatcher.act, host?_dispatch, if_neg (fun heq => hother hforeign entity hown heq.2),
          h.host entity hown]
  | deliver entity =>
      show (left.deliver entity).Agrees own right
      cases hqueue : left.queue entity with
      | nil => rwa [deliver_of_queue_eq_nil hqueue]
      | cons event rest =>
          have hentity : event.entity = entity := hleft.sorted entity event (hqueue ▸ List.mem_cons_self)
          obtain ⟨notices, hhandle⟩ := hleft.handle (hentity ▸ hforeign) (left.host? entity) entity
          rw [deliver_eq hqueue, hhandle]
          constructor
          · exact (handlers_popped left entity).trans h.handlers
          · exact (state_popped left entity).trans h.state
          · exact (stopped_popped left entity).trans h.stopped
          · exact (gone_popped left entity).trans h.gone
          · intro other hown
            have hpopped := queue_popped hqueue other
            rw [if_neg (hother hforeign other hown)] at hpopped
            exact hpopped.trans (h.queue other hown)
          · exact fun other hown => (host?_popped left entity other).trans (h.host other hown)
  | close entity =>
      rw [Dispatcher.act]
      split
      next hclose =>
        refine ⟨h.handlers, h.state, h.stopped, h.gone, fun other hown => ?_, fun other hown => ?_⟩
        · rw [queue_closeLane hclose.2, h.queue other hown]
        · rw [host?_closeLane, if_neg (hother hforeign other hown), h.host other hown]
      next => exact h

/-! ### Whole runs -/

/-- A run that leaves out what another one does to foreign lanes takes place like the rest of it. -/
theorem Agrees.through {invariant : Dispatcher σ → Prop} (allowed : Activity σ → Prop)
    (hsealed : ∀ dispatcher, invariant dispatcher → dispatcher.Sealed own)
    (hkeeps : ∀ dispatcher activity, allowed activity → invariant dispatcher →
      invariant (dispatcher.act activity))
    (h : left.Agrees own right) (hleft : invariant left) {activities : List (Activity σ)}
    (hallowed : ∀ activity ∈ activities, allowed activity)
    (hregister : ∀ kind handler, .register kind handler ∉ activities) :
    right.along observed (activities.filter (Activity.concerns own)) =
        left.along (ofOwn own observed) activities ∧
      right.along served (activities.filter (Activity.concerns own)) =
        left.along (ofOwn own served) activities ∧
      (left.through activities).Agrees own (right.through (activities.filter (Activity.concerns own))) := by
  induction activities generalizing left right with
  | nil => exact ⟨rfl, rfl, h⟩
  | cons first rest ih =>
      have hfirst : ∀ kind handler, first ≠ .register kind handler := by
        rintro kind handler rfl
        exact hregister kind handler List.mem_cons_self
      have hrest : ∀ kind handler, .register kind handler ∉ rest :=
        fun kind handler hmem => hregister kind handler (List.mem_cons_of_mem first hmem)
      obtain ⟨hnow, hlater⟩ := List.forall_mem_cons.mp hallowed
      have hnext := hkeeps left first hnow hleft
      cases hconcerns : first.concerns own with
      | true =>
          obtain ⟨hobserved, hserved, hact⟩ := h.act (hsealed left hleft) hconcerns hfirst
          obtain ⟨hsame, hothers, hlast⟩ := ih hact hnext hlater hrest
          rw [List.filter_cons_of_pos hconcerns]
          simp only [along, ofOwn, hconcerns, if_true, hobserved, hserved]
          exact ⟨congrArg _ hsame, congrArg _ hothers, hlast⟩
      | false =>
          obtain ⟨hsame, hothers, hlast⟩ :=
            ih (h.act_foreign (hsealed left hleft) hconcerns) hnext hlater hrest
          rw [List.filter_cons_of_neg (by simp [hconcerns])]
          simp only [along, ofOwn, hconcerns, Bool.false_eq_true, if_false, List.nil_append]
          exact ⟨hsame, hothers, hlast⟩

end Dispatcher

end JobFlow
