/-!
Lifecycles. A job and each of its vertices go through the same phases; a task only ends in one of
three outcomes. The reported phase is what a status page shows, and the cause of termination
decides how a job that stops early ends.
-/

namespace JobFlow

/-- The phases of a job or of a vertex. -/
inductive Phase where
  | new
  | inited
  | running
  | succeeded
  | failed
  | killed
  | error
  | killWait
  deriving DecidableEq

namespace Phase

def all : List Phase := [new, inited, running, succeeded, failed, killed, error, killWait]

/-- Whether a phase ends a life. A vertex stays in it; a finished job may still err. -/
def isTerminal : Phase → Bool
  | succeeded | failed | killed | error => true
  | new | inited | running | killWait => false

def text : Phase → String
  | new => "NEW"
  | inited => "INITED"
  | running => "RUNNING"
  | succeeded => "SUCCEEDED"
  | failed => "FAILED"
  | killed => "KILLED"
  | error => "ERROR"
  | killWait => "KILL_WAIT"

def term : Phase → String
  | new => "New"
  | inited => "Inited"
  | running => "Running"
  | succeeded => "Succeeded"
  | failed => "Failed"
  | killed => "Killed"
  | error => "Error"
  | killWait => "KillWait"

/-- The order in which a vertex goes through its phases. -/
def rank : Phase → Nat
  | new => 0
  | inited => 1
  | running => 2
  | killWait => 3
  | succeeded | failed | killed | error => 4

/-- The phases that a vertex enters with a request to kill what still runs. -/
def isStopping : Phase → Bool
  | killWait | failed | killed | error => true
  | new | inited | running | succeeded => false

theorem rank_eq_four {phase : Phase} : phase.rank = 4 ↔ phase.isTerminal = true := by
  cases phase <;> simp [rank, isTerminal]

theorem rank_le_four (phase : Phase) : phase.rank ≤ 4 := by
  cases phase <;> simp [rank]

end Phase

/-- The phases that a status report tells apart. -/
inductive ReportedPhase where
  | inited
  | running
  | succeeded
  | failed
  | killed
  | error
  deriving DecidableEq

namespace ReportedPhase

def text : ReportedPhase → String
  | inited => "INITED"
  | running => "RUNNING"
  | succeeded => "SUCCEEDED"
  | failed => "FAILED"
  | killed => "KILLED"
  | error => "ERROR"

end ReportedPhase

/-- What has not started is reported as `inited`, and what is being killed as `killed`. -/
def Phase.reported : Phase → ReportedPhase
  | .new | .inited => .inited
  | .running => .running
  | .succeeded => .succeeded
  | .failed => .failed
  | .killed | .killWait => .killed
  | .error => .error

/-- How a task ended. -/
inductive TaskOutcome where
  | succeeded
  | failed
  | killed
  deriving DecidableEq

namespace TaskOutcome

def all : List TaskOutcome := [succeeded, failed, killed]

def text : TaskOutcome → String
  | succeeded => "SUCCEEDED"
  | failed => "FAILED"
  | killed => "KILLED"

def term : TaskOutcome → String
  | succeeded => "Succeeded"
  | failed => "Failed"
  | killed => "Killed"

end TaskOutcome

/-- Why a job is being torn down. -/
inductive Cause where
  | none
  | userKill
  | vertexFailure
  deriving DecidableEq

namespace Cause

def all : List Cause := [none, userKill, vertexFailure]

def text : Cause → String
  | none => "NONE"
  | userKill => "USER_KILL"
  | vertexFailure => "VERTEX_FAILURE"

def isSet : Cause → Bool
  | none => false
  | userKill | vertexFailure => true

/-- The first cause is kept; a later one counts only while there is none. -/
def orElse (cause later : Cause) : Cause := if cause.isSet then cause else later

/-- Whether `orElse` takes the later cause. -/
def accepts (cause later : Cause) : Bool := !cause.isSet && later.isSet

/-- The phase in which a job ends once all of its vertices have. -/
def finalPhase : Cause → Phase
  | none => .succeeded
  | userKill => .killed
  | vertexFailure => .failed

theorem isTerminal_finalPhase (cause : Cause) : cause.finalPhase.isTerminal = true := by
  cases cause <;> rfl

theorem isSet_iff {cause : Cause} : cause.isSet = true ↔ cause ≠ .none := by
  cases cause <;> simp [isSet]

end Cause

end JobFlow
