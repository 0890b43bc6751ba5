import CrateSafety.Sorting
import CrateSafety.Verdict.Rule

/-!
# Findings

A finding is a rule that an entity breaks or a recommendation that it does not follow. A register keeps
findings as they come and lists them by the declaration order of their entities.
-/

namespace CrateSafety

/-- One broken rule of one entity. -/
structure Finding where
  /-- The path of the entity. -/
  path : String
  /-- The state that the finding implies. -/
  state : TerminalState
  /-- The rule. -/
  rule : Rule
  /-- The reason. -/
  explanation : String
  /-- How grave it is. -/
  severity : Severity := .violation
  /-- The source line of the site. -/
  line : Option Int := none
  deriving DecidableEq, Repr

/-- The position of a path in a declaration order; an unknown path comes before all. -/
def positionIn (order : List (String × Int)) (path : String) : Int :=
  ((order.find? fun entry => entry.1 == path).map (·.2)).getD (-1)

/-- Findings with a declaration order. -/
structure Register where
  /-- The position of each path. -/
  order : List (String × Int) := []
  /-- The findings as they came. -/
  entries : List Finding := []
  deriving DecidableEq, Repr

namespace Register

/-- A finding more. -/
def add (r : Register) (f : Finding) : Register :=
  { r with entries := r.entries ++ [f] }

/-- The findings by declaration order, those of one path as they came. -/
def findings (r : Register) : List Finding :=
  Sorting.sort (fun a b => positionIn r.order a.path ≤ positionIn r.order b.path) r.entries

/-- The findings of a path. -/
def forPath (r : Register) (path : String) : List Finding :=
  r.entries.filter fun f => f.path == path

/-- The findings that are not recommendations. -/
def violations (r : Register) : List Finding :=
  r.findings.filter fun f => f.severity != .recommended

/-- How many findings there are. -/
def size (r : Register) : Nat :=
  r.entries.length

end Register

/-- The state of an entity: the highest state among its violations, or the sound one. -/
def settle (sound : TerminalState) (findings : List Finding) : TerminalState :=
  findings.foldl (fun state f =>
    if f.severity == .violation && state.rank < f.state.rank then f.state else state) sound

end CrateSafety
