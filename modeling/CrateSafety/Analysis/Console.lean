import CrateSafety.Analysis.Log

/-!
# The console of the log

Log entries go to the console that is installed, if their level reaches the threshold. Consoles that keep
their lines are numbered from zero in the order of their making; the default one keeps nothing.
-/

namespace CrateSafety

/-- Where log entries go. -/
inductive Destination where
  /-- The default console. -/
  | standard
  /-- A console that keeps its lines. -/
  | kept (number : Nat)
  deriving DecidableEq, Repr

/-- The state of the log. -/
structure Console where
  /-- The threshold; zero stands for the level of warnings. -/
  threshold : Int := 0
  /-- Where entries go, if a console is installed. -/
  destination : Option Destination := none
  /-- How many consoles were made. -/
  made : Nat := 0
  deriving DecidableEq, Repr

namespace Console

/-- The threshold of a console that is installed without one. -/
def defaultThreshold : Int := LogLevel.info.number

/-- Installs a new console with a threshold. -/
def install (c : Console) (threshold : Int) : Console :=
  { threshold := threshold, destination := some (.kept c.made), made := c.made + 1 }

/-- Installs a new console and keeps the threshold, unless there is none. -/
def redirect (c : Console) : Console :=
  c.install (if c.threshold = 0 then defaultThreshold else c.threshold)

/-- Installs the default console unless one is installed. -/
def ensure (c : Console) : Console :=
  match c.destination with
  | some _ => c
  | none => { c with threshold := defaultThreshold, destination := some .standard }

/-- The least level that is let through. -/
def effectiveThreshold (c : Console) : Int :=
  if c.threshold = 0 then LogLevel.warning.number else c.threshold

/-- The width of the column of level names. -/
def levelWidth : Nat := 8

/-- The lines of an entry: the level name in its column, then the plain message; further lines of the
message start in the same column. -/
def lines (entry : LogEntry) : List String :=
  let name := entry.level.name.toList
  let column := name ++ List.replicate (levelWidth + 1 - name.length) ' '
  let margin := List.replicate (levelWidth + 1) ' '
  let finish (cs : List Char) : String := String.ofList (Text.dropEndWhile Text.isBlank cs)
  match Text.splitAt (· == '\n') (Markup.plain entry.message).toList with
  | [] => [finish column]
  | first :: rest => finish (column ++ first) :: rest.map fun line => finish (margin ++ line)

/-- The lines that an entry adds to the kept consoles, one list for each. -/
def write (c : Console) (entry : LogEntry) : List (List String) :=
  (List.range c.made).map fun n =>
    if c.destination == some (.kept n) && c.effectiveThreshold ≤ entry.level.number then lines entry
    else []

/-- The lines that entries add to the kept consoles. -/
def writeAll (c : Console) (entries : List LogEntry) : List (List String) :=
  entries.foldl (fun written entry => List.zipWith (· ++ ·) written (c.write entry))
    ((List.range c.made).map fun _ => [])

end Console

end CrateSafety
