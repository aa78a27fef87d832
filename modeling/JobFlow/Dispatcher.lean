import JobFlow.Notice

/-!
Delivery of events. Every entity has a lane, opened by the first event addressed to it, on which its
events wait in the order of dispatch. One delivery takes the first event of a lane and lets the
handler of its kind act; between lanes any order is possible. A stopped dispatcher handles what it
accepted and accepts nothing more. A lane is served on the host of the caller that opened it; when
that host goes away, the lane dies with what waits on it.

What a handler does with an event is a tree of its dispatches. It sees whether a dispatch was accepted
before it goes on, so its later acts may depend on that. It may also make another handler responsible
for a kind of events and ask how many events are in flight. It works on a state that all handlers of a
dispatcher share and that it leaves behind changed, also when it breaks down.
-/

namespace JobFlow

/-- The acts of a handler over a shared state. -/
inductive Action (σ : Type) where
  | done (state : σ)
  | abort (state : σ)
  | warn (notice : Notice) (next : Action σ)
  | dispatch (event : Event) (next : Except Refusal Unit → Action σ)
  | register (kind : EventKind) (handler : σ → Event → Action σ) (next : Action σ)
  | inspect (next : Nat → Action σ)

abbrev Handler (σ : Type) := σ → Event → Action σ

namespace Action

variable {σ : Type}

def warnAll (notices : List Notice) (next : Action σ) : Action σ :=
  notices.foldr .warn next

/-- Dispatches events in order. A refused one is put into the log and the rest go on. -/
def dispatchAll (events : List Event) (next : Action σ) : Action σ :=
  events.foldr (fun event rest => .dispatch event fun
    | .ok () => rest
    | .error refusal => .warn (.outboundRefused refusal) rest) next

end Action

/-- What serves lanes, and may go away. -/
structure HostId where
  number : Nat
  deriving DecidableEq

/-- The waiting events of an entity. The depth is counted apart from the queue. -/
structure Lane where
  queue : List Event := []
  depth : Nat := 0
  host : HostId
  deriving DecidableEq

namespace Lane

def push (lane : Lane) (event : Event) : Lane :=
  { lane with queue := lane.queue ++ [event], depth := lane.depth + 1 }

/-- What is left of a lane when a host goes away. -/
def lose (lane : Lane) (host : HostId) : Lane :=
  if lane.host = host then { host := host } else lane

/-- Puts a lane in the place of the one before it, or at the end if there was none. -/
def put (entity : Entity) (lane : Lane) : List (Entity × Lane) → List (Entity × Lane)
  | [] => [(entity, lane)]
  | (other, old) :: rest =>
    if other = entity then (entity, lane) :: rest else (other, old) :: put entity lane rest

def putLast (entity : Entity) (lane : Lane) (lanes : List (Entity × Lane)) : List (Entity × Lane) :=
  lanes.filter (·.1 ≠ entity) ++ [(entity, lane)]

theorem lookup_cons (pair : Entity × Lane) (lanes : List (Entity × Lane)) (entity : Entity) :
    (pair :: lanes).lookup entity =
      if entity = pair.1 then some pair.2 else lanes.lookup entity := by
  rw [List.lookup_cons]
  by_cases h : entity = pair.1
  · simp [h]
  · simp [h, beq_false_of_ne h]

theorem lookup_put (entity other : Entity) (lane : Lane) (lanes : List (Entity × Lane)) :
    (put entity lane lanes).lookup other =
      if other = entity then some lane else lanes.lookup other := by
  induction lanes with
  | nil => simp [put, lookup_cons]
  | cons pair rest ih => grind [put, lookup_cons]

theorem lookup_putLast (entity other : Entity) (lane : Lane) (lanes : List (Entity × Lane)) :
    (putLast entity lane lanes).lookup other =
      if other = entity then some lane else lanes.lookup other := by
  induction lanes with
  | nil => simp [putLast, lookup_cons]
  | cons pair rest ih =>
    unfold putLast at ih ⊢
    by_cases h : pair.1 = entity <;> grind [lookup_cons]

end Lane

/-- A dispatcher with the hosts that went away, the state that its handlers share and the log of what
went wrong. -/
structure Dispatcher (σ : Type) where
  threshold : Nat
  handlers : EventKind → Option (Handler σ)
  lanes : List (Entity × Lane)
  inFlight : Nat
  stopped : Bool
  gone : List HostId
  state : σ
  log : List Notice

namespace Dispatcher

variable {σ : Type}

def defaultThreshold : Nat := 1024

/-- A dispatcher without handlers and lanes; a backlog of less than one event gives no warning. -/
def create (threshold : Nat) (state : σ) : Dispatcher σ where
  threshold := max threshold 1
  handlers := fun _ => none
  lanes := []
  inFlight := 0
  stopped := false
  gone := []
  state := state
  log := []

def note (dispatcher : Dispatcher σ) (notices : List Notice) : Dispatcher σ :=
  { dispatcher with log := dispatcher.log ++ notices }

def register (dispatcher : Dispatcher σ) (kind : EventKind) (handler : Handler σ) : Dispatcher σ :=
  { dispatcher with
    handlers := fun other => if other = kind then some handler else dispatcher.handlers other
    log := dispatcher.log ++
      if (dispatcher.handlers kind).isSome then [.handlerReplaced kind] else [] }

def lane? (dispatcher : Dispatcher σ) (entity : Entity) : Option Lane :=
  dispatcher.lanes.lookup entity

/-- The events that wait for an entity, the next one first. -/
def queue (dispatcher : Dispatcher σ) (entity : Entity) : List Event :=
  (dispatcher.lane? entity).elim [] (·.queue)

def queued (dispatcher : Dispatcher σ) : Nat :=
  (dispatcher.lanes.flatMap (·.2.queue)).length

def host? (dispatcher : Dispatcher σ) (entity : Entity) : Option HostId :=
  (dispatcher.lane? entity).map (·.host)

/-- Whether the lane of an entity died with its host. -/
def isDead (dispatcher : Dispatcher σ) (entity : Entity) : Bool :=
  (dispatcher.host? entity).any (· ∈ dispatcher.gone)

/-- Puts an event on the lane of its entity, with a warning when the backlog reaches the threshold.
A lane on which nothing waited goes behind those on which something does. -/
def accept (dispatcher : Dispatcher σ) (event : Event) (lane : Lane) : Dispatcher σ :=
  let longer := lane.push event
  { dispatcher with
    lanes :=
      if lane.queue.isEmpty then Lane.putLast event.entity longer dispatcher.lanes
      else Lane.put event.entity longer dispatcher.lanes
    inFlight := dispatcher.inFlight + 1
    log := dispatcher.log ++
      if longer.depth = dispatcher.threshold then [.backlog event.entity longer.depth] else [] }

/-- Accepts an event or refuses it. The first event of an entity opens a lane on the host of its caller,
which a caller outside of every host lacks; on a host that is gone the new lane is dead. -/
def dispatch (dispatcher : Dispatcher σ) (event : Event) (caller : Option HostId := some ⟨0⟩) :
    Dispatcher σ × Except Refusal Unit :=
  if dispatcher.stopped then (dispatcher, .error .stopped)
  else match (dispatcher.lane? event.entity).or (caller.map fun host => { host := host }) with
    | some lane =>
      if lane.host ∈ dispatcher.gone then
        ({ dispatcher with lanes := Lane.put event.entity lane dispatcher.lanes }, .error .stopped)
      else (dispatcher.accept event lane, .ok ())
    | none => (dispatcher, .error .noRuntime)

/-- Lets the acts of a handler happen, which dispatches from the host that serves the event. A handler
that breaks down loses only its own event. -/
def perform (dispatcher : Dispatcher σ) (caller : Option HostId) (event : Event) :
    Action σ → Dispatcher σ
  | .done state => { dispatcher with state := state }
  | .abort state =>
    { dispatcher with state := state }.note [.handlerAborted event.kind event.entity]
  | .warn notice next => (dispatcher.note [notice]).perform caller event next
  | .dispatch sent next =>
    let (dispatcher, answer) := dispatcher.dispatch sent caller
    dispatcher.perform caller event (next answer)
  | .register kind handler next => (dispatcher.register kind handler).perform caller event next
  | .inspect next => dispatcher.perform caller event (next dispatcher.inFlight)

/-- Hands an event to the handler of its kind; without one it is dropped. -/
def handle (dispatcher : Dispatcher σ) (caller : Option HostId) (event : Event) : Dispatcher σ :=
  match dispatcher.handlers event.kind with
  | some handler => dispatcher.perform caller event (handler dispatcher.state event)
  | none => dispatcher

/-- Takes the first event of an entity and has it handled. It stays in flight until that is done. -/
def deliver (dispatcher : Dispatcher σ) (entity : Entity) : Dispatcher σ :=
  match dispatcher.lane? entity with
  | some ⟨event :: rest, depth, host⟩ =>
    let handled := { dispatcher with
      lanes := Lane.put entity ⟨rest, depth - 1, host⟩ dispatcher.lanes }.handle (some host) event
    { handled with inFlight := handled.inFlight - 1 }
  | _ => dispatcher

/-- The entity for which events have been waiting the longest. -/
def nextReady? (dispatcher : Dispatcher σ) : Option Entity :=
  (dispatcher.lanes.find? (fun (_, lane) => !lane.queue.isEmpty)).map (·.1)

/-- Delivers until nothing waits, or until the limit is reached. An entity is served until nothing
waits for it. -/
def drain : Nat → Dispatcher σ → Dispatcher σ
  | 0, dispatcher => dispatcher
  | limit + 1, dispatcher =>
    match dispatcher.nextReady? with
    | some entity => drain limit (dispatcher.deliver entity)
    | none => dispatcher

/-- Whether everything that was accepted has been handled. -/
def isIdle (dispatcher : Dispatcher σ) : Bool := dispatcher.inFlight == 0

/-- Refuses everything from here on. -/
def refuse (dispatcher : Dispatcher σ) : Dispatcher σ := { dispatcher with stopped := true }

/-- Closes the lane of an entity. A lane that died before is put into the log. -/
def closeLane (dispatcher : Dispatcher σ) (entity : Entity) : Dispatcher σ :=
  { dispatcher with
    lanes := dispatcher.lanes.filter (·.1 ≠ entity)
    log := dispatcher.log ++ if dispatcher.isDead entity then [.laneDied entity] else [] }

def closeLanes (dispatcher : Dispatcher σ) : Dispatcher σ :=
  (dispatcher.lanes.map (·.1)).foldl closeLane dispatcher

/-- Handles what was accepted and closes the lanes. From here on every dispatch is refused, those of
the handlers included, so what waits now is all there is to handle. -/
def stop (dispatcher : Dispatcher σ) : Dispatcher σ :=
  if dispatcher.stopped then dispatcher
  else (drain dispatcher.queued dispatcher.refuse).closeLanes

/-- A host goes away: the lanes that it serves die, and their waiting events are never handled. -/
def loseHost (dispatcher : Dispatcher σ) (host : HostId := ⟨0⟩) : Dispatcher σ :=
  { dispatcher with
    gone := host :: dispatcher.gone
    lanes := dispatcher.lanes.map (fun (entity, lane) => (entity, lane.lose host)) }

def term (dispatcher : Dispatcher σ) : String :=
  let inFlight := dispatcher.inFlight
  let stopped := dispatcher.stopped
  s!"Dispatcher \x7b in_flight: {inFlight}, stopped: {stopped}, .. \x7d"

end Dispatcher

end JobFlow
