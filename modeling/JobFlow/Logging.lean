import JobFlow.Config

/-!
Setting up the log of a process. The level is the one asked for, else the one that the environment
names, else `info`. A log that is set up stays as it is, and a second attempt is refused.
-/

namespace JobFlow

namespace LogLevel

def parse? (text : String) : Option LogLevel :=
  match Text.normalize text with
  | "error" => some .error
  | "warn" | "warning" => some .warn
  | "info" => some .info
  | "debug" => some .debug
  | "trace" => some .trace
  | _ => none

end LogLevel

/-- A process with the log level of its environment, and the level of its log once it is set up. -/
structure Logging where
  environment : Option String
  installed : Option LogLevel := none
  deriving DecidableEq

inductive LoggingFault where
  | alreadyInstalled
  deriving DecidableEq

def LoggingFault.message : LoggingFault → String
  | alreadyInstalled => "failed to install tracing subscriber"

namespace Logging

/-- The level that counts when a given one is asked for. -/
def resolve (logging : Logging) (level : Option LogLevel) : LogLevel :=
  (level.or (logging.environment.bind LogLevel.parse?)).getD .info

def install (logging : Logging) (level : Option LogLevel) :
    Logging × Except LoggingFault LogLevel :=
  match logging.installed with
  | some _ => (logging, .error .alreadyInstalled)
  | none =>
    let level := logging.resolve level
    ({ logging with installed := some level }, .ok level)

def installFrom (logging : Logging) (config : Config) : Logging × Except LoggingFault LogLevel :=
  logging.install config.settings.level

end Logging

end JobFlow
