import CrateSafety.Analysis.Markup

/-!
# Log entries

What a run logs: messages with markup at one of four levels.
-/

namespace CrateSafety

/-- The levels of log entries. -/
inductive LogLevel where
  /-- What is being done. -/
  | info
  /-- A run without violations. -/
  | success
  /-- Something to look at. -/
  | warning
  /-- A failed run. -/
  | error
  deriving DecidableEq, Repr

namespace LogLevel

/-- The name. -/
def name : LogLevel → String
  | info => "INFO"
  | success => "SUCCESS"
  | warning => "WARNING"
  | error => "ERROR"

/-- The number that thresholds are compared with. -/
def number : LogLevel → Int
  | info => 20
  | success => 25
  | warning => 30
  | error => 40

end LogLevel

/-- A logged message. -/
structure LogEntry where
  /-- The level. -/
  level : LogLevel
  /-- The message with its markup. -/
  message : String
  deriving DecidableEq, Repr

/-- A path between tags that set it off. -/
def Markup.path (path : String) : String :=
  "[path]" ++ escape path ++ "[/path]"

end CrateSafety
