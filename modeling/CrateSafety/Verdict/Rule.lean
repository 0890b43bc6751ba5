/-!
# Rules and states

The terminal states of entities, the severities of findings, and the rules that are checked.
-/

namespace CrateSafety

/-- What an entity is classified as. -/
inductive TerminalState where
  /-- Sound and declared safe. -/
  | soundSafe
  /-- Sound and declared unsafe. -/
  | soundUnsafe
  /-- The declared safety does not fit the requirements. -/
  | classificationViolation
  /-- Internals are reached across the soundness boundary. -/
  | boundaryViolation
  /-- A requirement names what is not visible. -/
  | malformedRequirement
  /-- An implementation demands more than its trait. -/
  | contractStrengthening
  /-- The obligations of the crate are cyclic. -/
  | cyclicObligation
  deriving DecidableEq, Repr

namespace TerminalState

/-- The name in reports. -/
def name : TerminalState → String
  | soundSafe => "sound_safe"
  | soundUnsafe => "sound_unsafe"
  | classificationViolation => "classification_violation"
  | boundaryViolation => "boundary_violation"
  | malformedRequirement => "malformed_requirement"
  | contractStrengthening => "contract_strengthening_violation"
  | cyclicObligation => "cyclic_obligation"

/-- All states. -/
def all : List TerminalState :=
  [soundSafe, soundUnsafe, classificationViolation, boundaryViolation, malformedRequirement,
    contractStrengthening, cyclicObligation]

/-- The state of a name. -/
def ofName? (name : String) : Option TerminalState :=
  all.find? fun state => state.name == name

/-- Whether the state is a sound one. -/
def isSound : TerminalState → Bool
  | soundSafe | soundUnsafe => true
  | _ => false

/-- The precedence among the states of one entity: the highest one wins. A cyclic obligation concerns the
run as a whole and stands above all. -/
def rank : TerminalState → Nat
  | soundSafe => 0
  | soundUnsafe => 1
  | classificationViolation => 2
  | boundaryViolation => 3
  | contractStrengthening => 4
  | malformedRequirement => 5
  | cyclicObligation => 6

/-- The sound state of an entity, by its declaration. -/
def sound (declaredUnsafe : Bool) : TerminalState :=
  if declaredUnsafe then soundUnsafe else soundSafe

end TerminalState

/-- How grave a finding is. -/
inductive Severity where
  /-- A rule is broken. -/
  | violation
  /-- A recommendation is not followed. -/
  | recommended
  /-- The run cannot be completed. -/
  | fatal
  deriving DecidableEq, Repr

namespace Severity

/-- The name in reports. -/
def name : Severity → String
  | violation => "violation"
  | recommended => "recommended"
  | fatal => "fatal"

/-- All severities. -/
def all : List Severity := [violation, recommended, fatal]

/-- The severity of a name. -/
def ofName? (name : String) : Option Severity :=
  all.find? fun severity => severity.name == name

end Severity

/-- The rules that are checked. -/
inductive Rule where
  /-- An item with requirements is declared safe. -/
  | functionSafety1
  /-- An item without requirements is declared unsafe. -/
  | functionSafety2
  /-- A requirement that reaches the callers is not documented. -/
  | functionComment1
  /-- A requirement names what is not visible. -/
  | functionComment2
  /-- A requirement on local state is not justified. -/
  | functionComment3
  /-- A constructor does not establish the invariant. -/
  | structSafety1
  /-- A method can break the invariant. -/
  | structSafety2
  /-- An invariant names what is no field. -/
  | structComment1
  /-- Reliance on the invariant is not documented. -/
  | structComment2
  /-- Internals are reached from outside the boundary. -/
  | structBoundary1
  /-- A field of the invariant can be named outside the boundary. -/
  | structBoundary2
  /-- An unsafe trait has no invariant. -/
  | traitSafety1
  /-- A safe trait has an invariant. -/
  | traitSafety2
  /-- An implementation and its trait differ in safety. -/
  | traitImpl1
  /-- An implementation demands more than its trait. -/
  | traitContract1
  /-- An unsafe operation should be justified. -/
  | recommendedSafetyComment
  /-- A claim should give a reason. -/
  | recommendedJustificationReason
  /-- A claim should match a requirement. -/
  | recommendedUnmatchedClaim
  /-- An unsafe implementation should be justified. -/
  | recommendedImplJustification
  /-- The obligations of the crate must not be cyclic. -/
  | cyclicObligation
  deriving DecidableEq, Repr

namespace Rule

/-- The identifier in reports. -/
def name : Rule → String
  | functionSafety1 => "function-safety-1"
  | functionSafety2 => "function-safety-2"
  | functionComment1 => "function-comment-1"
  | functionComment2 => "function-comment-2"
  | functionComment3 => "function-comment-3"
  | structSafety1 => "struct-safety-1"
  | structSafety2 => "struct-safety-2"
  | structComment1 => "struct-comment-1"
  | structComment2 => "struct-comment-2"
  | structBoundary1 => "struct-boundary-1"
  | structBoundary2 => "struct-boundary-2"
  | traitSafety1 => "trait-safety-1"
  | traitSafety2 => "trait-safety-2"
  | traitImpl1 => "trait-impl-1"
  | traitContract1 => "trait-contract-1"
  | recommendedSafetyComment => "recommended-safety-comment"
  | recommendedJustificationReason => "recommended-justification-reason"
  | recommendedUnmatchedClaim => "recommended-unmatched-claim"
  | recommendedImplJustification => "recommended-impl-justification"
  | cyclicObligation => "cyclic-obligation"

/-- All rules. -/
def all : List Rule :=
  [functionSafety1, functionSafety2, functionComment1, functionComment2, functionComment3,
    structSafety1, structSafety2, structComment1, structComment2, structBoundary1, structBoundary2,
    traitSafety1, traitSafety2, traitImpl1, traitContract1, recommendedSafetyComment,
    recommendedJustificationReason, recommendedUnmatchedClaim, recommendedImplJustification,
    cyclicObligation]

/-- The rule of an identifier. -/
def ofName? (name : String) : Option Rule :=
  all.find? fun rule => rule.name == name

end Rule

end CrateSafety
