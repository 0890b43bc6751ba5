import CrateSafety.Analysis.Log
import CrateSafety.Model.Build
import CrateSafety.Snapshot.Decode
import CrateSafety.Sorting
import CrateSafety.Verdict.Check

/-!
# Analysis runs

A run takes a value, a snapshot or a model to a report, and logs what it does. Structural faults and cycles
of obligations end in a report of failure.
-/

namespace CrateSafety

/-- Why a run has no report. -/
inductive RunError where
  /-- A text that has no atoms. -/
  | predicate (error : PredicateError)
  /-- A template that cannot be filled. -/
  | template (error : TemplateError)
  /-- A path that has no scope. -/
  | scope (error : ScopeError)
  deriving DecidableEq, Repr

/-- The failure of an obligation as the failure of a run. -/
def RunError.ofObligation : ObligationError → RunError
  | .predicate e => .predicate e
  | .template e => .template e

/-- The failure of a classification as the failure of a run. -/
def RunError.ofCheck : CheckError → RunError
  | .predicate e => .predicate e
  | .scope e => .scope e

/-- The outcome of a run. -/
structure Report where
  /-- The name of the crate. -/
  crate : String := Path.crateRoot
  /-- The criterion. -/
  criterion : Criterion
  /-- The state of each entity in declaration order. -/
  states : List (String × TerminalState) := []
  /-- The findings in declaration order. -/
  findings : List Finding := []
  /-- The errors that ended the run. -/
  errors : List String := []
  /-- Whether the run was completed. -/
  success : Bool := true
  deriving DecidableEq, Repr

namespace Report

/-- Whether there are errors. -/
def hasErrors (r : Report) : Bool :=
  !r.errors.isEmpty

/-- The findings that are not recommendations. -/
def violations (r : Report) : List Finding :=
  r.findings.filter fun f => f.severity != .recommended

/-- Whether the run was completed and every entity is sound. -/
def isSound (r : Report) : Bool :=
  r.success && r.states.all fun entry => entry.2.isSound

/-- The report of a run that failed before there was a model. -/
def failure (criterion : Criterion) (error : String) : Report :=
  { criterion := criterion, errors := [error], success := false }

end Report

/-- A run: the log, and a report unless it fails. -/
abbrev Run := Traced LogEntry RunError

namespace Run

/-- Logs a message. -/
def log (level : LogLevel) (message : String) : Run Unit :=
  .note ⟨level, message⟩

/-- The log entry for a target that names nothing. -/
def unresolvedEntry (u : Unresolved) : LogEntry :=
  let role := match u.role with
    | .callee => "unresolved callee"
    | .struct => "unknown struct"
  ⟨.warning, Markup.path u.caller ++ ": " ++ role ++ " `" ++ Markup.escape u.target ++
    "`, no obligation recorded"⟩

/-- The number of violated entities. -/
def violated (states : List (String × TerminalState)) : Nat :=
  (states.filter fun entry => !entry.2.isSound).length

/-- The report of a run that ended in a cycle. -/
def cyclicReport (config : Config) (m : Model) (cycle : List String) : Report :=
  { crate := m.crate, criterion := config.criterion, success := false,
    findings := [⟨m.crate, .cyclicObligation, .cyclicObligation,
      "obligation graph contains a cycle: " ++ cycleText cycle, .fatal, none⟩],
    errors := ["Cyclic obligation: " ++ cycleText cycle] }

/-- The report of verdicts, in declaration order. -/
def verdictReport (config : Config) (m : Model) (verdicts : List Verdict) : Report :=
  let order := m.declarationOrder
  let sorted := Sorting.sort (fun a b => positionIn order a.path ≤ positionIn order b.path) verdicts
  let register : Register := ⟨order, verdicts.flatMap (·.findings)⟩
  { crate := m.crate, criterion := config.criterion,
    states := sorted.map fun v => (v.path, v.state), findings := register.findings }

/-- The classification of a model with its obligations. -/
def classify (config : Config) (m : Model) (g : Graph) : Run Report := do
  let verdicts ← .lift .ofCheck (m.verdicts config g)
  let report := verdictReport config m verdicts
  let count := toString report.states.length
  match violated report.states with
  | 0 => log .success ("All " ++ count ++ " entities are sound")
  | n => log .warning (toString n ++ " of " ++ count ++ " entities violate the safety rules")
  return report

/-- A run on a model. -/
def ofModel (config : Config) (m : Model) : Run Report := do
  log .info ("Analyzing " ++ Markup.path m.crate ++ " under the " ++ config.criterion.name ++
    "-level criterion (" ++ toString m.items.length ++ " items, " ++ toString m.structs.length ++
    " structs, " ++ toString m.traits.length ++ " traits)")
  if !m.issues.isEmpty then
    log .warning (toString m.issues.length ++ " malformed requirement(s) recorded")
  let graph := m.graph config
  let obligations : Run (Except (List String) Graph) :=
    ⟨graph.notes.map unresolvedEntry,
      match graph.outcome with
      | .ok g => .ok (.ok g)
      | .error (.cyclic cycle) => .ok (.error cycle)
      | .error (.obligation e) => .error (.ofObligation e)⟩
  match ← obligations with
  | .ok g => classify config m g
  | .error cycle =>
    log .error (Markup.escape ("Cyclic obligation: " ++ cycleText cycle))
    return cyclicReport config m cycle

/-- A run on a snapshot. -/
def ofSnapshot (config : Config) (s : Snapshot) : Run Report :=
  let refuse (message : String) : Run Report := do
    log .error ("Model Error: " ++ Markup.escape message)
    return .failure config.criterion ("Model Error: " ++ message)
  match (Model.build config s).outcome with
  | .ok m => ofModel config m
  | .error (.structural e) => refuse e.message
  | .error (.malformed issue) => refuse issue.strictMessage
  | .error (.predicate e) => .fail (.predicate e)

/-- How many faults a value has, as a text. -/
def faultCount (faults : List Fault) : String :=
  toString faults.length ++ (if faults.length = 1 then " validation error" else " validation errors")

/-- A run on a value. -/
def ofJson (config : Config) (value : Json) : Run Report :=
  match Snapshot.ofJson value with
  | .valid s => ofSnapshot config s
  | .invalid faults => do
    log .error ("Snapshot validation failed: " ++ toString faults.length ++ " error(s)")
    return .failure config.criterion ("Snapshot Error: " ++ faultCount faults ++ " for CrateSnapshot")

end Run

end CrateSafety
