import CrateSafety.Requirement.Condition

/-!
# Coverage of obligations

Whether an outstanding condition holds on every path to its site, given the guards of the site, the
contract of the enclosing item and, if need be, the invariant of its receiver.
-/

namespace CrateSafety

/-- The outcome of a coverage check. -/
structure Coverage where
  /-- The atoms missing on the first path that is not covered; `none` if all are. -/
  missing : Option Conjunction
  /-- Whether the invariant was needed on some path before. -/
  reliesOnInvariant : Bool

namespace Coverage

/-- Whether every path is covered. -/
def covered (c : Coverage) : Bool :=
  c.missing.isNone

/-- Whether the invariant, in each of its satisfiable alternatives, covers the outstanding condition on a
path. -/
def byInvariant (outstanding invariant : Condition) (path : Conjunction) : Bool :=
  !invariant.isEmpty &&
    invariant.conjunctions.all fun inv =>
      !Conjunction.satisfiable (path ++ inv) ||
        (Conjunction.firstUncovered (path ++ inv) outstanding.alternatives).isNone

/-- The satisfiable paths: a satisfiable guard with an alternative of the contract. -/
def paths (guards contract : Condition) : List Conjunction :=
  (guards.conjunctions.filter Conjunction.satisfiable).flatMap fun guard =>
    (contract.conjunctions.map (guard ++ ·)).filter Conjunction.satisfiable

/-- Checks the paths in order; `relies` tells whether the invariant was needed before. -/
def along (outstanding invariant : Condition) (relies : Bool) : List Conjunction → Coverage
  | [] => ⟨none, relies⟩
  | path :: rest =>
    match path.firstUncovered outstanding.alternatives with
    | none => along outstanding invariant relies rest
    | some missing =>
      if byInvariant outstanding invariant path then along outstanding invariant true rest
      else ⟨some missing, relies⟩

/-- Checks an outstanding condition at a site. -/
def check (outstanding guards contract invariant : Condition) : Coverage :=
  if outstanding.isEmpty then ⟨none, false⟩
  else along outstanding invariant false (paths guards contract)

end Coverage

end CrateSafety
