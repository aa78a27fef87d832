import JobFlow.Proofs.Delivery

/-!
Dispatchers that are watched. The handlers of a dispatcher may share a diary beside their state, into
which each of them writes that it is called and how its dispatches are answered; the answers to
dispatches from outside are written into it too. Main statement: a watched dispatcher does what it does
when nobody watches.
-/

namespace JobFlow

variable {σ : Type}

/-- What can be done to a dispatcher: a handler is made responsible for a kind of events, an event is
dispatched, from a host or outside of any, and the first event of a lane is delivered. A shutdown begins by
refusing every dispatch and closes the lanes one by one, each when nothing waits on it any more. A host may
go away. -/
inductive Activity (σ : Type) where
  | register (kind : EventKind) (handler : Handler σ)
  | dispatch (event : Event) (caller : Option HostId)
  | deliver (entity : Entity)
  | refuse
  | close (entity : Entity)
  | lose (host : HostId)

namespace Dispatcher

def act (dispatcher : Dispatcher σ) : Activity σ → Dispatcher σ
  | .register kind handler => dispatcher.register kind handler
  | .dispatch event caller => (dispatcher.dispatch event caller).1
  | .deliver entity => dispatcher.deliver entity
  | .refuse => dispatcher.refuse
  | .close entity =>
    if dispatcher.stopped ∧ dispatcher.queue entity = [] then dispatcher.closeLane entity else dispatcher
  | .lose host => dispatcher.loseHost host

/-- The dispatcher after the activities of a run. -/
def through (dispatcher : Dispatcher σ) (activities : List (Activity σ)) : Dispatcher σ :=
  activities.foldl act dispatcher

/-- What is noted of each activity of a run, in order. -/
def along {β : Type} (note : Dispatcher σ → Activity σ → List β) (dispatcher : Dispatcher σ) :
    List (Activity σ) → List β
  | [] => []
  | activity :: rest => note dispatcher activity ++ (dispatcher.act activity).along note rest

theorem through_cons (dispatcher : Dispatcher σ) (activity : Activity σ) (rest : List (Activity σ)) :
    dispatcher.through (activity :: rest) = (dispatcher.act activity).through rest := rfl

theorem through_append (dispatcher : Dispatcher σ) (activities later : List (Activity σ)) :
    dispatcher.through (activities ++ later) = (dispatcher.through activities).through later :=
  List.foldl_append

theorem along_append {β : Type} (note : Dispatcher σ → Activity σ → List β) (dispatcher : Dispatcher σ)
    (activities later : List (Activity σ)) : dispatcher.along note (activities ++ later) =
      dispatcher.along note activities ++ (dispatcher.through activities).along note later := by
  induction activities generalizing dispatcher with
  | nil => rfl
  | cons first rest ih =>
      rw [List.cons_append, along, along, ih, List.append_assoc]
      rfl

end Dispatcher

/-- What a diary tells of: a handler is called with an event, or a dispatch is answered. -/
inductive Observation (σ : Type) where
  | called (handler : Handler σ) (event : Event)
  | answered (event : Event) (answer : Except Refusal Unit)

namespace Observation

/-- The event of a dispatch that was accepted. -/
def accepted? : Observation σ → Option Event
  | .answered event (.ok ()) => some event
  | .answered _ (.error _) | .called _ _ => none

def call? : Observation σ → Option (Handler σ × Event)
  | .called handler event => some (handler, event)
  | .answered _ _ => none

end Observation

/-- A state with a diary. -/
abbrev Watched (σ : Type) := σ × List (Observation σ)

/-- The acts of a handler that goes on writing a diary. -/
def Action.watched : Action σ → List (Observation σ) → Action (Watched σ)
  | .done state, diary => .done (state, diary)
  | .abort state, diary => .abort (state, diary)
  | .warn notice next, diary => .warn notice (next.watched diary)
  | .dispatch event next, diary =>
    .dispatch event fun answer => (next answer).watched (diary ++ [.answered event answer])
  | .register kind handler next, diary =>
    .register kind
      (fun (state, diary) event => (handler state event).watched (diary ++ [.called handler event]))
      (next.watched diary)
  | .inspect next, diary => .inspect fun count => (next count).watched diary

/-- A handler that writes down that it is called. -/
def Handler.watched (handler : Handler σ) : Handler (Watched σ) := fun (state, diary) event =>
  (handler state event).watched (diary ++ [.called handler event])

def Activity.watched : Activity σ → Activity (Watched σ)
  | .register kind handler => .register kind (Handler.watched handler)
  | .dispatch event caller => .dispatch event caller
  | .deliver entity => .deliver entity
  | .refuse => .refuse
  | .close entity => .close entity
  | .lose host => .lose host

namespace Dispatcher

/-- A dispatcher of which a diary is kept. -/
def watched (dispatcher : Dispatcher σ) (diary : List (Observation σ)) : Dispatcher (Watched σ) where
  threshold := dispatcher.threshold
  handlers := fun kind => (dispatcher.handlers kind).map Handler.watched
  lanes := dispatcher.lanes
  inFlight := dispatcher.inFlight
  stopped := dispatcher.stopped
  gone := dispatcher.gone
  state := (dispatcher.state, diary)
  log := dispatcher.log

/-- An activity of a watched dispatcher; the answer to a dispatch from outside is written down. -/
def observe (dispatcher : Dispatcher (Watched σ)) (activity : Activity σ) : Dispatcher (Watched σ) :=
  let after := dispatcher.act activity.watched
  match activity with
  | .dispatch event caller =>
    let answer := (dispatcher.dispatch event caller).2
    { after with state := (after.state.1, after.state.2 ++ [.answered event answer]) }
  | .register _ _ | .deliver _ | .refuse | .close _ | .lose _ => after

/-! ### What is written down -/

/-- How the dispatches of a handler are answered. -/
def answers (dispatcher : Dispatcher σ) (caller : Option HostId) : Action σ → List (Observation σ)
  | .done _ | .abort _ => []
  | .warn notice next => (dispatcher.note [notice]).answers caller next
  | .dispatch event next =>
    let (dispatcher, answer) := dispatcher.dispatch event caller
    .answered event answer :: dispatcher.answers caller (next answer)
  | .register kind handler next => (dispatcher.register kind handler).answers caller next
  | .inspect next => dispatcher.answers caller (next dispatcher.inFlight)

theorem answers_dispatch (dispatcher : Dispatcher σ) (caller : Option HostId) (event : Event)
    (next : Except Refusal Unit → Action σ) : dispatcher.answers caller (.dispatch event next) =
      [.answered event (dispatcher.dispatch event caller).2] ++
        (dispatcher.dispatch event caller).1.answers caller (next (dispatcher.dispatch event caller).2) :=
  rfl

/-- The call with which an event is handled, and the answers that the handler is given. -/
def handling (dispatcher : Dispatcher σ) (caller : Option HostId) (event : Event) :
    List (Observation σ) :=
  match dispatcher.handlers event.kind with
  | some handler => .called handler event :: dispatcher.answers caller (handler dispatcher.state event)
  | none => []

/-- What an activity adds to the diary. -/
def observed (dispatcher : Dispatcher σ) : Activity σ → List (Observation σ)
  | .dispatch event caller => [.answered event (dispatcher.dispatch event caller).2]
  | .deliver entity => (dispatcher.queue entity).head?.toList.flatMap
      ((dispatcher.popped entity).handling (dispatcher.host? entity))
  | .register _ _ | .refuse | .close _ | .lose _ => []

/-! ### Nothing else changes -/

section Watched

variable (dispatcher : Dispatcher σ) (diary : List (Observation σ))

theorem watched_dispatch (event : Event) (caller : Option HostId) :
    (dispatcher.watched diary).dispatch event caller =
      ((dispatcher.dispatch event caller).1.watched diary, (dispatcher.dispatch event caller).2) := by
  have hlane : (dispatcher.watched diary).lane? event.entity = dispatcher.lane? event.entity := rfl
  have hgone : (dispatcher.watched diary).gone = dispatcher.gone := rfl
  rw [dispatch, dispatch, hlane, hgone]
  cases hstopped : dispatcher.stopped with
  | true => simp [watched, hstopped]
  | false =>
      cases (dispatcher.lane? event.entity).or (caller.map fun host => { host := host }) with
      | none => simp [watched, hstopped]
      | some lane => by_cases hdead : lane.host ∈ dispatcher.gone <;> simp [watched, hstopped, hdead, accept]

theorem watched_register (kind : EventKind) (handler : Handler σ) :
    (dispatcher.watched diary).register kind (Handler.watched handler) =
      (dispatcher.register kind handler).watched diary := by
  have hhandlers : ∀ other, (if other = kind then some (Handler.watched handler)
      else (dispatcher.handlers other).map Handler.watched) =
        (if other = kind then some handler else dispatcher.handlers other).map Handler.watched := by
    intro other
    split <;> rfl
  simp only [register, watched, hhandlers, Option.isSome_map]

/-- A handler that writes a diary acts as it does without. The diary that was left before is of no account. -/
theorem watched_perform (caller : Option HostId) (event : Event) (action : Action σ)
    (old : List (Observation σ)) :
    (dispatcher.watched old).perform caller event (action.watched diary) =
      (dispatcher.perform caller event action).watched (diary ++ dispatcher.answers caller action) := by
  induction action generalizing dispatcher diary with
  | done state => simp [Action.watched, perform, answers, watched]
  | abort state => simp [Action.watched, perform, answers, watched, note]
  | warn notice next ih => exact ih (dispatcher.note [notice]) diary
  | dispatch sent next ih =>
      rw [Action.watched, perform, perform, answers, watched_dispatch]
      dsimp only
      rw [ih, List.append_assoc, List.singleton_append]
  | register kind handler next _ ih =>
      have hregister := dispatcher.watched_register old kind handler
      unfold Handler.watched at hregister
      rw [Action.watched, perform, perform, answers, hregister]
      exact ih (dispatcher.register kind handler) diary
  | inspect next ih => exact ih dispatcher.inFlight dispatcher diary

theorem watched_handle (caller : Option HostId) (event : Event) :
    (dispatcher.watched diary).handle caller event =
      (dispatcher.handle caller event).watched (diary ++ dispatcher.handling caller event) := by
  have hhandler : (dispatcher.watched diary).handlers event.kind =
      (dispatcher.handlers event.kind).map Handler.watched := rfl
  rw [handle, handle, handling, hhandler]
  cases dispatcher.handlers event.kind with
  | none => simp
  | some handler =>
      have hperform := dispatcher.watched_perform (diary ++ [.called handler event]) caller event
        (handler dispatcher.state event) diary
      rw [List.append_assoc, List.singleton_append] at hperform
      exact hperform

theorem watched_popped (entity : Entity) :
    (dispatcher.watched diary).popped entity = (dispatcher.popped entity).watched diary := by
  have hlane : (dispatcher.watched diary).lane? entity = dispatcher.lane? entity := rfl
  rw [popped, popped, hlane]
  split <;> rfl

/-- An activity of a watched dispatcher is that of the dispatcher itself. -/
theorem observe_watched (activity : Activity σ) : (dispatcher.watched diary).observe activity =
    (dispatcher.act activity).watched (diary ++ dispatcher.observed activity) := by
  cases activity with
  | register kind handler =>
      rw [observed, List.append_nil]
      exact dispatcher.watched_register diary kind handler
  | dispatch event caller =>
      simp only [observe, Activity.watched, act, watched_dispatch, observed]
      rfl
  | deliver entity =>
      have hsame : (dispatcher.watched diary).queue entity = dispatcher.queue entity := rfl
      rw [observed]
      show (dispatcher.watched diary).deliver entity = (dispatcher.deliver entity).watched _
      cases hqueue : dispatcher.queue entity with
      | nil =>
          rw [deliver_of_queue_eq_nil hqueue, deliver_of_queue_eq_nil (hsame.trans hqueue)]
          simp
      | cons event rest =>
          have hhost : (dispatcher.watched diary).host? entity = dispatcher.host? entity := rfl
          rw [deliver_eq hqueue, deliver_eq (hsame.trans hqueue), watched_popped, hhost, watched_handle]
          simp [watched]
  | refuse =>
      rw [observed, List.append_nil]
      rfl
  | close entity =>
      have hstopped : (dispatcher.watched diary).stopped = dispatcher.stopped := rfl
      have hqueue : (dispatcher.watched diary).queue entity = dispatcher.queue entity := rfl
      rw [observed, List.append_nil]
      simp only [observe, Activity.watched, act, hstopped, hqueue]
      by_cases hclose : dispatcher.stopped = true ∧ dispatcher.queue entity = []
      · rw [if_pos hclose, if_pos hclose]
        rfl
      · rw [if_neg hclose, if_neg hclose]
  | lose host =>
      rw [observed, List.append_nil]
      rfl

/-- A watched dispatcher does what it does when nobody watches. -/
theorem foldl_observe (activities : List (Activity σ)) :
    activities.foldl observe (dispatcher.watched diary) =
      (dispatcher.through activities).watched (diary ++ dispatcher.along observed activities) := by
  induction activities generalizing dispatcher diary with
  | nil => simp [through, along]
  | cons first rest ih =>
      rw [List.foldl_cons, observe_watched, ih, along, List.append_assoc]
      rfl

end Watched

/-- What the diary of a run tells of. -/
def diary (dispatcher : Dispatcher σ) (activities : List (Activity σ)) : List (Observation σ) :=
  (activities.foldl observe (dispatcher.watched [])).state.2

theorem diary_eq (dispatcher : Dispatcher σ) (activities : List (Activity σ)) :
    dispatcher.diary activities = dispatcher.along observed activities := by
  rw [diary, foldl_observe]
  rfl

theorem diary_append (dispatcher : Dispatcher σ) (activities later : List (Activity σ)) :
    dispatcher.diary (activities ++ later) =
      dispatcher.diary activities ++ (dispatcher.through activities).diary later := by
  rw [diary_eq, diary_eq, diary_eq, along_append]

end Dispatcher

end JobFlow
