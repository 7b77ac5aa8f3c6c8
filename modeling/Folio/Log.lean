/-
Log lines and the settings of the logger. A test run is silent; otherwise the
environment chooses the level, and whether lines are prettified on their way out.
-/
import Folio.Environment
import Folio.Fault

namespace Folio

/-- The levels of log lines, the least serious first. -/
inductive Level where
  | trace
  | debug
  | info
  | warn
  | error
  | fatal
deriving DecidableEq, Repr

namespace Level

/-- The levels in order. -/
def all : List Level := [trace, debug, info, warn, error, fatal]

/-- The name of a level. -/
def name : Level → String
  | trace => "trace"
  | debug => "debug"
  | info => "info"
  | warn => "warn"
  | error => "error"
  | fatal => "fatal"

/-- The level of a name. -/
def ofName? (name : String) : Option Level := all.find? fun l => l.name = name

end Level

/-- What a logger lets through: lines from a level on, or none at all. -/
inductive Threshold where
  | from (level : Level)
  | silent
deriving DecidableEq, Repr

namespace Threshold

/-- The name of a threshold. -/
def name : Threshold → String
  | .from level => level.name
  | silent => "silent"

/-- Whether lines of a level pass. -/
def admits : Threshold → Level → Bool
  | .from least, level => least.ctorIdx ≤ level.ctorIdx
  | silent, _ => false

/-- The threshold that a text names. Levels may be in capitals. -/
def read (text : String) : Except Fault Threshold :=
  if text = silent.name then .ok silent
  else
    match Level.ofName? text.toLower with
    | some level => .ok (.from level)
    | none => .error (.unknownLevel text)

end Threshold

/-- The settings of a logger. -/
structure LogSettings where
  threshold : Threshold
  /-- Whether lines are prettified. -/
  pretty : Bool
deriving DecidableEq, Repr

/-- The settings that the environment asks for. -/
def LogSettings.ofEnvironment (env : Environment) : Except Fault LogSettings :=
  if env.isTestRun then .ok ⟨.silent, false⟩
  else
    (Threshold.read ((env.read? "LOG_LEVEL").getD Level.info.name)).map fun threshold =>
      ⟨threshold, env.read? "LOG_PRETTY" ≠ some "false"⟩

end Folio
