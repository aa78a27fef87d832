import JobFlow.Notice

/-!
One step of a state machine: the machine after an event, the events it sends and the notices it puts
into the log, both in order.
-/

namespace JobFlow

structure Step (μ : Type) where
  machine : μ
  outbound : List Event := []
  notices : List Notice := []

namespace Step

variable {μ : Type}

/-- A step that changes and sends nothing. -/
def rest (machine : μ) : Step μ := { machine := machine }

/-- Goes on from the machine that a step left; what comes later is sent later. -/
def andThen (step : Step μ) (next : μ → Step μ) : Step μ :=
  let later := next step.machine
  { machine := later.machine
    outbound := step.outbound ++ later.outbound
    notices := step.notices ++ later.notices }

@[simp] theorem machine_rest (machine : μ) : (rest machine).machine = machine := rfl

@[simp] theorem outbound_rest (machine : μ) : (rest machine).outbound = [] := rfl

@[simp] theorem notices_rest (machine : μ) : (rest machine).notices = [] := rfl

@[simp] theorem machine_andThen (step : Step μ) (next : μ → Step μ) :
    (step.andThen next).machine = (next step.machine).machine := rfl

@[simp] theorem outbound_andThen (step : Step μ) (next : μ → Step μ) :
    (step.andThen next).outbound = step.outbound ++ (next step.machine).outbound := rfl

@[simp] theorem notices_andThen (step : Step μ) (next : μ → Step μ) :
    (step.andThen next).notices = step.notices ++ (next step.machine).notices := rfl

theorem rest_andThen (machine : μ) (next : μ → Step μ) : (rest machine).andThen next = next machine := rfl

/-- What comes next depends on the machine that the step left, and on nothing else. -/
theorem andThen_congr {step : Step μ} {next other : μ → Step μ} (h : next step.machine = other step.machine) :
    step.andThen next = step.andThen other := by
  simp [andThen, h]

theorem andThen_rest (step : Step μ) : step.andThen rest = step := by
  simp [andThen]

theorem andThen_assoc (step : Step μ) (next later : μ → Step μ) :
    (step.andThen next).andThen later = step.andThen (fun machine => (next machine).andThen later) := by
  simp [andThen]

end Step

end JobFlow
