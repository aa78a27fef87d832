import JobFlow.Error
import JobFlow.Text

/-!
The settings of a coordinator, as they are read and as they are accepted: a warning threshold of
zero, which no backlog would ever reach, is refused. The start gate says what a vertex waits for from each of
its sources; the gates are named by words that are read without regard to case and surrounding white space.
-/

namespace JobFlow

inductive Gating where
  | sourceStarted
  | sourceSucceeded
  deriving DecidableEq

/-- A word, as it was looked up, that names no gate. -/
structure UnknownGating where
  word : String
  deriving DecidableEq

def UnknownGating.message (unknown : UnknownGating) : String :=
  let word := unknown.word
  s!"invalid start_gating: {word} (expected \"source_started\" or \"source_succeeded\")"

namespace Gating

def all : List Gating := [sourceStarted, sourceSucceeded]

/-- Unless told otherwise, a vertex starts once its sources have started. -/
def default : Gating := sourceStarted

def text : Gating → String
  | sourceStarted => "source_started"
  | sourceSucceeded => "source_succeeded"

/-- The gate of a word. -/
def parse (text : String) : Except UnknownGating Gating :=
  match Text.normalize text with
  | "source_started" => .ok .sourceStarted
  | "source_succeeded" => .ok .sourceSucceeded
  | word => .error ⟨word⟩

end Gating

/-- How much the log says, from the least to the most. -/
inductive LogLevel where
  | error
  | warn
  | info
  | debug
  | trace
  deriving DecidableEq

namespace LogLevel

def all : List LogLevel := [error, warn, info, debug, trace]

def text : LogLevel → String
  | error => "error"
  | warn => "warn"
  | info => "info"
  | debug => "debug"
  | trace => "trace"

end LogLevel

/-- Settings as they are read; what is not given keeps its default. -/
structure Settings where
  gating : Gating := .default
  backlogThreshold : Nat := 1024
  level : Option LogLevel := none
  deriving DecidableEq

/-- Settings that a coordinator can work with. -/
structure Config where
  settings : Settings := {}
  threshold_pos : 0 < settings.backlogThreshold := by decide
  deriving DecidableEq

/-- Why settings are refused. -/
inductive ConfigDefect where
  | zeroThreshold
  deriving DecidableEq

def ConfigDefect.error : ConfigDefect → Error
  | zeroThreshold =>
    .configuration "[dispatcher].backlog_warn_threshold must be >= 1 (got 0)"

def Settings.validate (settings : Settings) : Except ConfigDefect Config :=
  if h : 0 < settings.backlogThreshold then .ok ⟨settings, h⟩ else .error .zeroThreshold

/-- Where a configuration is looked for unless another place is given. -/
def Config.defaultPath : String := "Dagcoord.toml"

end JobFlow
