import CrateSafety.Model.Scope
import CrateSafety.Obligation.Graph
import CrateSafety.Requirement.Coverage
import CrateSafety.Requirement.Hidden
import CrateSafety.Verdict.Finding

/-!
# Classification of entities

Every entity gets exactly one terminal state. An item is checked for its obligations: those that its guards,
its own contract and the invariant of its receiver do not cover become requirements of the item, and these
must agree with its declaration. Implementations of trait methods are checked against the contract of the
trait.
-/

namespace CrateSafety

/-- Why an entity cannot be classified. -/
inductive CheckError where
  /-- A text that has no atoms. -/
  | predicate (error : PredicateError)
  /-- A path that has no scope. -/
  | scope (error : ScopeError)
  deriving DecidableEq, Repr

/-- The state of an entity with its findings in the order in which they arose. -/
structure Verdict where
  /-- The path of the entity. -/
  path : String
  /-- The state. -/
  state : TerminalState
  /-- The findings. -/
  findings : List Finding
  deriving DecidableEq, Repr

/-- What an uncovered obligation means for an item. -/
structure Placement where
  /-- The rule that is broken. -/
  rule : Rule
  /-- The state that it implies. -/
  state : TerminalState
  /-- Whether the obligation passes on to the callers of the item. -/
  propagates : Bool
  deriving DecidableEq, Repr

/-- An obligation that is not covered at its site. -/
structure Uncovered where
  /-- The obligation. -/
  edge : Edge
  /-- The missing atoms. -/
  missing : Conjunction
  /-- What it means for the item. -/
  placement : Placement

/-- The missing atoms as a text. -/
def Uncovered.text (u : Uncovered) : String :=
  " and ".intercalate (u.missing.map fun a => "`" ++ a.text ++ "`")

namespace Model

/-- The violation of a rule. -/
def violation (path : String) (state : TerminalState) (rule : Rule) (explanation : String)
    (line : Option Int) : Finding :=
  ⟨path, state, rule, explanation, .violation, line⟩

/-- A recommendation, if recommendations are reported. -/
def recommendation (config : Config) (path : String) (declaredUnsafe : Bool) (rule : Rule)
    (explanation : String) (line : Option Int) : List Finding :=
  if config.reportRecommended then
    [⟨path, .sound declaredUnsafe, rule, explanation, .recommended, line⟩]
  else []

/-- The malformed requirements of a declaration as findings. -/
def issueFindings (m : Model) (path : String) : List Finding :=
  (m.issuesFor path).map fun i => violation path .malformedRequirement i.rule i.explanation none

/-- The recommendations at an obligation: justify what is unsafe, give reasons, claim what is required. -/
def recommendationsAt (config : Config) (i : Item) (e : Edge) : List Finding :=
  let recommend (rule : Rule) (explanation : String) : List Finding :=
    recommendation config i.path i.declaredUnsafe rule explanation e.line
  match e.site.justification with
  | none =>
    if e.requiresUnsafe then
      recommend .recommendedSafetyComment (e.describe ++ " has no SAFETY justification")
    else []
  | some j =>
    (j.claims.filter fun claim => claim.reason == "").flatMap (fun claim =>
      recommend .recommendedJustificationReason
        ("claim '" ++ claim.text ++ "' at " ++ e.describe ++ " gives no reason")) ++
    e.unmatched.flatMap fun claim =>
      recommend .recommendedUnmatchedClaim
        ("claim '" ++ claim.text ++ "' at " ++ e.describe ++ " matches no requirement")

/-- The invariant that an item may rely on: that of the struct of its receiver. -/
def invariantFor (m : Model) (i : Item) : Condition :=
  match i.owner?.bind m.struct? with
  | some s => if i.hasReceiver then s.invariant else {}
  | none => {}

/-- The boundary of the struct that an obligation reaches into. -/
def boundaryOf (m : Model) (config : Config) (e : Edge) : Except ScopeError Boundary :=
  match m.boundary? e.target config.criterion with
  | some b => .ok b
  | none => .error (.unknown e.target)

/-- What an uncovered obligation means: `none` if it is tolerated, which internals are inside the boundary
of their struct for items that cannot be named outside it. -/
def placement (m : Model) (config : Config) (i : Item) (e : Edge) :
    Except ScopeError (Option Placement) := do
  if !e.kind.touchesInternals then return some ⟨.functionSafety1, .classificationViolation, true⟩
  let boundary ← m.boundaryOf config e
  if i.owner == some e.target then
    if i.constructor then return some ⟨.structSafety1, .classificationViolation, true⟩
    else if ← m.exposedOutside i boundary then
      return some ⟨.structSafety2, .classificationViolation, true⟩
    else return none
  else if boundary.contains i then
    if ← m.exposedOutside i boundary then return some ⟨.structBoundary1, .boundaryViolation, false⟩
    else return none
  else return some ⟨.structBoundary1, .boundaryViolation, false⟩

/-- The coverage of an obligation under a contract, with its meaning; `none` if nothing is to be shown. -/
def coverageOf (m : Model) (config : Config) (i : Item) (contract : Condition) (e : Edge) :
    Except ScopeError (Option (Placement × Coverage)) := do
  if e.isDischarged then return none
  match ← m.placement config i e with
  | none => return none
  | some placement =>
    return some (placement, Coverage.check e.outstanding e.site.guards contract (m.invariantFor i))

/-- The obligations that a contract does not cover, and whether the invariant was relied on. -/
def uncovered (m : Model) (config : Config) (i : Item) (contract : Condition) (edges : List Edge) :
    Except ScopeError (List Uncovered × Bool) := do
  let results ← edges.mapM fun e => do return (e, ← m.coverageOf config i contract e)
  let gaps := results.filterMap fun (e, result) =>
    match result with
    | some (placement, coverage) => coverage.missing.map fun missing => ⟨e, missing, placement⟩
    | none => none
  return (gaps, results.any fun (_, result) => result.any fun (_, coverage) => coverage.reliesOnInvariant)

/-- The violation of an obligation that reaches internals from outside the boundary. -/
def escape (m : Model) (config : Config) (i : Item) (u : Uncovered) : Except ScopeError Finding := do
  let boundary ← m.boundaryOf config u.edge
  return violation i.path u.placement.state u.placement.rule
    (u.edge.describe ++ " bypasses the invariant of `" ++ u.edge.target ++ "` (" ++ u.text ++
      ") from outside the " ++ boundary.text) u.edge.line

/-- The names in atoms that callers of an item cannot use, in quotes, each once. -/
def hiddenFromCallers (config : Config) (i : Item) (atoms : Conjunction) : List String :=
  Text.distinct (atoms.flatMap fun a =>
    (a.hidden i.signature config.ambientNames none).map fun name => "`" ++ name ++ "`")

/-- The names that keep an obligation from passing on to callers. Invariants speak of `self`, so for
internals none do. -/
def blockers (config : Config) (i : Item) (u : Uncovered) : List String :=
  if u.edge.kind.touchesInternals then [] else hiddenFromCallers config i u.missing

/-- Whether an obligation passes on to the callers of an item. -/
def passesOn (config : Config) (i : Item) (u : Uncovered) : Bool :=
  u.placement.propagates && (blockers config i u).isEmpty

/-- The findings on obligations that do not pass on: escapes, and those over local state. -/
def stuckFindings (m : Model) (config : Config) (i : Item) (gaps : List Uncovered) :
    Except ScopeError (List Finding) :=
  (gaps.filter fun u => !passesOn config i u).mapM fun u =>
    if u.placement.propagates then
      return violation i.path .classificationViolation .functionComment3
        (u.text ++ " from " ++ u.edge.describe ++ " references " ++
          ", ".intercalate (blockers config i u) ++
          ", which callers cannot name; it must be justified at the site") u.edge.line
    else m.escape config i u

/-- The findings on the declaration of an item, given the obligations that pass on to its callers. -/
def classify (i : Item) (passed : List Uncovered) : List Finding :=
  let documented := i.requirements.documented
  let report := violation i.path .classificationViolation
  if i.declaredUnsafe then
    (if documented.isEmpty && passed.isEmpty then
      [report .functionSafety2 "declared unsafe but has no safety requirement" i.line]
    else []) ++
    passed.map fun u =>
      report .functionComment1
        (u.text ++ " from " ++ u.edge.describe ++ " is neither justified nor documented") u.edge.line
  else
    (passed.map fun u =>
      report u.placement.rule
        ("declared safe but " ++ u.text ++ " from " ++ u.edge.describe ++
          " is neither justified nor guaranteed") u.edge.line) ++
    (if documented.isEmpty then []
    else
      [report .functionSafety1
        ("declared safe but documents safety requirements: " ++ documented.text) i.line])

/-- The findings of an item that implements no trait method, after issues and recommendations. -/
def plainFindings (m : Model) (config : Config) (i : Item) (edges : List Edge) :
    Except ScopeError (List Finding) := do
  let (gaps, relies) ← m.uncovered config i i.contract edges
  let undocumented :=
    if relies && !i.requirements.hasMarker then
      [violation i.path .classificationViolation .structComment2
        ("relies on the type invariant of `" ++ i.owner.getD "" ++
          "` without documenting `invariant(self)`") i.line]
    else []
  let stuck ← m.stuckFindings config i gaps
  return undocumented ++ stuck ++ classify i (gaps.filter (passesOn config i))

/-- The contract of a trait method in the terms of an item that implements it. -/
def traitContract (declared i : Item) : Except PredicateError Condition :=
  declared.requirements.documented.rename ⟨Renaming.zip declared.params i.params, []⟩

/-- The findings of an item against the trait method that it implements: only demands beyond the contract
of the trait are violations. -/
def implementationFindings (m : Model) (config : Config) (i declared : Item) (edges : List Edge) :
    Except CheckError (List Finding) := do
  let contract ← (traitContract declared i).mapError .predicate
  let documented := i.requirements.documented
  let report := violation i.path .contractStrengthening .traitContract1
  let unsafety :=
    if i.declaredUnsafe && !declared.declaredUnsafe then
      [report ("unsafe implementation of safe trait method `" ++ declared.path ++ "`") i.line]
    else []
  let demands :=
    if documented.entailedBy contract then []
    else
      [report ("requires " ++ documented.text ++ ", which `" ++ declared.path ++
        "` does not guarantee (" ++ contract.text ++ ")") i.line]
  let assumed := if declared.declaredUnsafe then contract else {}
  let (gaps, _) ← (m.uncovered config i assumed edges).mapError .scope
  let uncovered ← gaps.mapM fun u =>
    if u.placement.propagates then
      return report (u.text ++ " from " ++ u.edge.describe ++ " is not covered by the contract of `" ++
        declared.path ++ "`") u.edge.line
    else (m.escape config i u).mapError .scope
  return unsafety ++ demands ++ uncovered

/-- The findings of a function-like item. -/
def itemFindings (m : Model) (config : Config) (edges : List Edge) (i : Item) :
    Except CheckError (List Finding) := do
  let first := m.issueFindings i.path ++ edges.flatMap (recommendationsAt config i)
  match i.implements?.bind m.item? with
  | some declared => return first ++ (← m.implementationFindings config i declared edges)
  | none => return first ++ (← (m.plainFindings config i edges).mapError .scope)

/-- The findings of a struct: malformed invariants, and fields of the invariant that can be named outside
the boundary. -/
def structFindings (m : Model) (config : Config) (s : Struct) : Except ScopeError (List Finding) := do
  let boundary : Boundary := ⟨s.path, s.module, config.criterion⟩
  let exposed ← s.invariantFields.filterM fun name => m.fieldExposed s name boundary
  return m.issueFindings s.path ++ exposed.map fun name =>
    violation s.path .boundaryViolation .structBoundary2
      ("field `" ++ name ++ "` is constrained by the type invariant but nameable outside the " ++
        boundary.text) s.line

/-- The findings of a trait: it is unsafe exactly if it has an invariant. -/
def traitFindings (m : Model) (t : Trait) : List Finding :=
  m.issueFindings t.path ++
    match t.declaredUnsafe, t.invariant.isEmpty with
    | true, true =>
      [violation t.path .classificationViolation .traitSafety1
        "unsafe trait documents no invariant for implementors to uphold" t.line]
    | false, false =>
      [violation t.path .classificationViolation .traitSafety2
        ("safe trait documents an invariant (" ++ t.invariant.text ++ "); it must be declared unsafe")
        t.line]
    | _, _ => []

/-- The trait that an implementation names, as written or beneath its module. -/
def implementedTrait? (m : Model) (i : Impl) : Option Trait :=
  [i.trait, Path.child i.module i.trait].findSome? m.trait?

/-- The findings of an implementation: it is unsafe exactly if its trait is. -/
def implFindings (m : Model) (config : Config) (i : Impl) : List Finding :=
  let known := m.implementedTrait? i
  let expected := match known with
    | some t => t.declaredUnsafe
    | none => config.unsafeExternalTraits.contains (Path.lastSegment i.trait)
  (if i.declaredUnsafe == expected then []
  else
    [violation i.path .classificationViolation .traitImpl1
      ("implementation of `" ++ i.trait ++ "`" ++ (if known.isSome then "" else " (external trait)") ++
        " must be " ++ (if expected then "unsafe" else "safe")) i.line]) ++
  (if i.declaredUnsafe && i.justification.isNone then
    recommendation config i.path true .recommendedImplJustification
      ("unsafe implementation of `" ++ i.trait ++ "` for `" ++ i.target ++ "` has no SAFETY justification")
      i.line
  else [])

/-- The findings of an entity. -/
def findingsOf (m : Model) (config : Config) (g : Graph) : Entity → Except CheckError (List Finding)
  | .item i => m.itemFindings config (g.edgesFrom i.path) i
  | .struct s => (m.structFindings config s).mapError .scope
  | .trait t => .ok (m.traitFindings t)
  | .impl i => .ok (m.implFindings config i)
  | .enum _ => .ok []

/-- The verdict on an entity. -/
def verdict (m : Model) (config : Config) (g : Graph) (e : Entity) : Except CheckError Verdict := do
  let findings ← m.findingsOf config g e
  return ⟨e.path, settle (.sound e.declaredUnsafe) findings, findings⟩

/-- The entities in the order in which they are checked: items with callees first, then structs, traits,
implementations and enumeration types. -/
def checkingOrder (m : Model) (g : Graph) : List Entity :=
  (g.order.filterMap m.item?).map .item ++ m.structs.map .struct ++ m.traits.map .trait ++
    m.impls.map .impl ++ m.enums.map .enum

/-- The verdicts on all entities in the order in which they are checked. -/
def verdicts (m : Model) (config : Config) (g : Graph) : Except CheckError (List Verdict) :=
  (m.checkingOrder g).mapM (m.verdict config g)

end Model

end CrateSafety
