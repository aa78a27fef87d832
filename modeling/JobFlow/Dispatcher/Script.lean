import JobFlow.Dispatcher

/-!
Handlers described by data, to drive a dispatcher by hand. Each keeps a record of the events it was
given and of the dispatches that were refused to it; some dispatch further events. A dispatcher over
such handlers comes to rest after a number of deliveries that can be read off the scripts.
-/

namespace JobFlow

/-- What a scripted handler does: it only records, breaks down, passes a shrinking task report on to
the next vertex, or dispatches given events. -/
inductive Role where
  | record
  | abort
  | cascade
  | forward (events : List Event)

structure Script where
  name : String
  role : Role

/-- An event that a handler was given, or a refusal that it met while handling for the entity. -/
inductive Entry where
  | event (event : Event)
  | refused (refusal : Refusal)

structure Record where
  handler : String
  entity : Entity
  entry : Entry

namespace Event

/-- The report that a cascade sends on: one task earlier, of the vertex after the addressed one. -/
def cascade : Event → List Event
  | .vertex addressed (.taskCompleted task outcome) =>
    if task.index = 0 then []
    else [.taskCompleted ⟨⟨addressed.index + 1⟩, task.index - 1⟩ outcome]
  | _ => []

/-- The number of reports that a cascade still sends after this one. -/
def cascadeLength : Event → Nat
  | .vertex _ (.taskCompleted task _) => task.index
  | _ => 0

end Event

namespace Script

/-- Dispatches events in order, with a record of each refusal. -/
def send (script : Script) (entity : Entity) : List Event → List Record → Action (List Record)
  | [], records => .done records
  | event :: rest, records => .dispatch event fun
    | .ok () => script.send entity rest records
    | .error refusal =>
      script.send entity rest (records ++ [⟨script.name, entity, .refused refusal⟩])

/-- The handler that a script describes. -/
def handler (script : Script) : Handler (List Record) := fun records event =>
  let noted := records ++ [⟨script.name, event.entity, .event event⟩]
  match script.role with
  | .record => .done noted
  | .abort => .abort records
  | .cascade => script.send event.entity event.cascade noted
  | .forward events => script.send event.entity events noted

end Script

namespace Dispatcher

variable {σ : Type}

/-- Dispatches an event several times, from the first host as long as it is there and not from outside;
the last answer counts. -/
def dispatchTimes (dispatcher : Dispatcher σ) (event : Event) (outside : Bool) :
    Nat → Dispatcher σ × Except Refusal Unit
  | 0 => (dispatcher, .ok ())
  | times + 1 =>
    let caller := if outside ∨ ⟨0⟩ ∈ dispatcher.gone then none else some ⟨0⟩
    let (next, answer) := dispatcher.dispatch event caller
    if times = 0 then (next, answer) else next.dispatchTimes event outside times

end Dispatcher

structure Rehearsal where
  scripts : EventKind → Option Script
  dispatcher : Dispatcher (List Record)

namespace Rehearsal

def create (threshold : Nat) : Rehearsal where
  scripts := fun _ => none
  dispatcher := .create threshold []

def register (rehearsal : Rehearsal) (kind : EventKind) (script : Script) : Rehearsal where
  scripts := fun other => if other = kind then some script else rehearsal.scripts other
  dispatcher := rehearsal.dispatcher.register kind script.handler

/-- The deliveries that an event leads to, its own included. Scripts that forward in a circle never
come to rest, so no chain of forwards is longer than there are kinds of events. -/
def deliveries (scripts : EventKind → Option Script) : Nat → Event → Nat
  | 0, _ => 1
  | depth + 1, event =>
    match scripts event.kind with
    | some ⟨_, .forward events⟩ => 1 + (events.map (deliveries scripts depth)).foldr (· + ·) 0
    | some ⟨_, .cascade⟩ => 1 + event.cascadeLength
    | _ => 1

def settle (rehearsal : Rehearsal) : Rehearsal :=
  let waiting := rehearsal.dispatcher.lanes.flatMap (·.2.queue)
  let limit := (waiting.map (deliveries rehearsal.scripts EventKind.all.length)).foldr (· + ·) 0
  { rehearsal with dispatcher := rehearsal.dispatcher.drain limit }

end Rehearsal

end JobFlow
