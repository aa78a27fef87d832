/-!
Everything that can be refused, with the text of each refusal. A defect of a plan, a refused
dispatch and a failed read are causes of their own; `Error` is what a caller sees of all of them.
-/

namespace JobFlow

/-- A failure as it is shown to the caller. -/
inductive Error where
  | configuration (detail : String)
  | malformedPlan (detail : String)
  | cycle (detail : String)
  | unknownVertex (edge vertex : String)
  | duplicateVertex (name : String)
  | dispatcherStopped
  | noRuntime
  | io (detail : String)
  | toml (detail : String)
  deriving DecidableEq

namespace Error

def message : Error → String
  | configuration detail => s!"Configuration error: {detail}"
  | malformedPlan detail => s!"Malformed plan: {detail}"
  | cycle detail => s!"Cycle detected in DAG: {detail}"
  | unknownVertex edge vertex => s!"Edge '{edge}' references unknown vertex '{vertex}'"
  | duplicateVertex name => s!"Duplicate vertex name in plan: {name}"
  | dispatcherStopped => "Dispatcher has been stopped"
  | noRuntime => "No Tokio runtime available to run dispatcher lanes"
  | io detail => s!"IO error: {detail}"
  | toml detail => s!"TOML parsing error: {detail}"

/-- The failures that say that a plan describes no job. -/
def isMalformedPlan : Error → Bool
  | malformedPlan _ | cycle _ | unknownVertex _ _ | duplicateVertex _ => true
  | configuration _ | dispatcherStopped | noRuntime | io _ | toml _ => false

end Error

/-- Why a plan describes no job. -/
inductive PlanDefect where
  | noVertices (plan : String)
  | duplicateVertex (name : String)
  | duplicateEdge (id : String)
  | unknownVertex (edge vertex : String)
  | selfLoop (edge vertex : String)
  | cycle (vertex : String)
  deriving DecidableEq

/-- A loop from a vertex to itself is the shortest cycle and is shown as one. -/
def PlanDefect.error : PlanDefect → Error
  | noVertices plan => .malformedPlan s!"plan '{plan}' must contain at least one vertex"
  | duplicateVertex name => .duplicateVertex name
  | duplicateEdge id => .malformedPlan s!"duplicate edge id '{id}'"
  | unknownVertex edge vertex => .unknownVertex edge vertex
  | selfLoop edge vertex => .cycle s!"edge '{edge}' connects vertex '{vertex}' to itself"
  | cycle vertex => .cycle s!"cycle detected in vertex DAG involving vertex '{vertex}'"

theorem PlanDefect.isMalformedPlan_error (defect : PlanDefect) :
    defect.error.isMalformedPlan := by
  cases defect <;> rfl

/-- Why a dispatcher did not accept an event. -/
inductive Refusal where
  | stopped
  | noRuntime
  deriving DecidableEq

def Refusal.error : Refusal → Error
  | stopped => .dispatcherStopped
  | noRuntime => .noRuntime

/-- Why a configuration file could not be read as text. -/
inductive ReadFault where
  | missing
  | directory
  | notText
  deriving DecidableEq

def ReadFault.error : ReadFault → Error
  | missing => .io "No such file or directory (os error 2)"
  | directory => .io "Is a directory (os error 21)"
  | notText => .io "stream did not contain valid UTF-8"

end JobFlow
