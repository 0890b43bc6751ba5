import CrateSafety.Requirement.Atom

/-!
# Satisfiability and entailment

The logic sees keys, negations of keys, and comparisons of one expression with numbers, folded into an
interval for each expression. Anything else is opaque to it.
-/

namespace CrateSafety

/-- The intervals that the bounds of a conjunction leave, one for each subject. -/
abbrev Ranges := List (String × Interval)

namespace Ranges

/-- Constrains the interval of a subject, the full line if there is none yet. -/
def constrain (ranges : Ranges) (bound : Bound) : Ranges :=
  match ranges with
  | [] => [(bound.subject, ({} : Interval).constrain bound.op bound.value)]
  | (subject, interval) :: rest =>
    if subject == bound.subject then (subject, interval.constrain bound.op bound.value) :: rest
    else (subject, interval) :: constrain rest bound

/-- The intervals of a conjunction. -/
def ofAtoms (atoms : Conjunction) : Ranges :=
  (atoms.filterMap (·.bound)).foldl constrain []

end Ranges

namespace Conjunction

/-- Whether an atom with the given key is among the atoms. -/
def hasKey (atoms : Conjunction) (key : String) : Bool :=
  atoms.any (·.key == key)

/-- Whether no contradiction is seen among the atoms. -/
def satisfiable (atoms : Conjunction) : Bool :=
  !atoms.hasKey "False" &&
    !(atoms.any fun a => a.negates.any atoms.hasKey) &&
    !((Ranges.ofAtoms atoms).any fun entry => entry.2.isEmpty)

/-- Whether the intervals of the atoms imply a bound. -/
def impliesBound (atoms : Conjunction) (bound : Bound) : Bool :=
  match (Ranges.ofAtoms atoms).lookup bound.subject with
  | some interval => interval.satisfies bound.op bound.value
  | none => false

/-- Whether the atoms are seen to imply the target. -/
def entails (atoms : Conjunction) (target : Atom) : Bool :=
  target.key == "True" || atoms.hasKey target.key || !atoms.satisfiable ||
    target.bound.any atoms.impliesBound

/-- The atoms of a conjunction that the assumptions do not imply. -/
def missing (assumptions targets : Conjunction) : Conjunction :=
  targets.filter fun a => !assumptions.entails a

/-- The missing atoms of the alternative that comes closest, the earliest of those; `best` is the closest
so far. -/
def closest (assumptions : Conjunction) (best : Option Conjunction) :
    List Conjunction → Option Conjunction
  | [] => best
  | alternative :: rest =>
    let gap := assumptions.missing alternative
    if gap.isEmpty then none
    else
      match best with
      | some old => closest assumptions (if gap.length < old.length then some gap else some old) rest
      | none => closest assumptions (some gap) rest

/-- `none` if the assumptions imply some alternative in full, or there is none; otherwise the missing
atoms of the alternative that comes closest. -/
def firstUncovered (assumptions : Conjunction) (alternatives : List Conjunction) :
    Option Conjunction :=
  closest assumptions none alternatives

end Conjunction

end CrateSafety
