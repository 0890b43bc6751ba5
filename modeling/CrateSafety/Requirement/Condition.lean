import CrateSafety.Requirement.Entailment
import CrateSafety.Requirement.Reading
import CrateSafety.Sorting

/-!
# Conditions

A condition is a set of alternatives, each a conjunction of atoms. A condition without alternatives asks
for nothing. Contracts, invariants and guards are conditions.
-/

namespace CrateSafety

/-- A condition in disjunctive normal form. -/
structure Condition where
  /-- The alternatives; none means that nothing is asked. -/
  alternatives : List Conjunction := []

/-- Text that stands for names: variables, and members of `self`. -/
structure Renaming where
  /-- Texts for variables. -/
  names : List (String × String) := []
  /-- Texts for members of `self`. -/
  selfFields : List (String × String) := []

namespace Renaming

/-- Pairs with distinct keys: a later pair overrides the text of an earlier one with its key. -/
def put (pairs : List (String × String)) (key text : String) : List (String × String) :=
  match pairs with
  | [] => [(key, text)]
  | (k, t) :: rest => if k == key then (k, text) :: rest else (k, t) :: put rest key text

/-- Names paired with texts by position. -/
def zip (names texts : List String) : List (String × String) :=
  (names.zip texts).foldl (fun pairs (name, text) => put pairs name text) []

end Renaming

namespace Atom

/-- The names of an atom that can be renamed. -/
def renameable (a : Atom) : List String :=
  match a.source with
  | .prose words => words
  | .expression _ _ => a.identifiers

/-- The texts of a renaming, read as operands. -/
def operands (pairs : List (String × String)) : Except PredicateError (List (String × Expr)) :=
  pairs.mapM fun (name, text) => do return (name, ← Reading.operand text)

/-- The atom with its names replaced; an atom with no name to replace is left as it is. -/
def rename (a : Atom) (r : Renaming) : Except PredicateError Atom := do
  let names := r.names.filter fun (name, text) => a.renameable.contains name && name != text
  let selfFields := r.selfFields.filter fun (name, _) => a.selfMembers.contains name
  if names.isEmpty && selfFields.isEmpty then return a
  match a.source with
  | .prose _ => return ofProse (Prose.rename names selfFields a.text.toList)
  | .expression node paths =>
    let nameOperands ← operands names
    let fieldOperands ← operands selfFields
    ofExpr (← (node.subst ⟨nameOperands, fieldOperands, paths⟩).checked) paths

end Atom

/-- The keys of a conjunction in order, which tell conjunctions with the same atoms. -/
def Conjunction.signature (atoms : Conjunction) : List String :=
  Sorting.sort (fun a b => decide (a ≤ b)) (atoms.map (·.key))

namespace Condition

/-- Whether nothing is asked. -/
def isEmpty (c : Condition) : Bool :=
  c.alternatives.isEmpty

/-- Adds a conjunction unless one with the same keys is present. -/
def insert (alternatives : List Conjunction) (atoms : Conjunction) : List Conjunction :=
  if alternatives.any (·.signature == atoms.signature) then alternatives else alternatives ++ [atoms]

/-- The condition with the given alternatives: repeated atoms and alternatives are dropped, and an
alternative that asks for nothing makes the whole condition ask for nothing. -/
def build (alternatives : List Conjunction) : Condition :=
  let conjunctions := alternatives.map Conjunction.dedupe
  if conjunctions.any List.isEmpty then {} else ⟨conjunctions.foldl insert []⟩

/-- The conjunction of conditions in disjunctive form. -/
def ofForms (forms : List (List Conjunction)) : Condition :=
  if forms.isEmpty then {} else build (forms.foldl Reading.product [[]])

/-- The conjunction of documented lines; blank lines do not count. -/
def ofLines (lines : List String) : Except PredicateError Condition := do
  return ofForms (← (lines.filter fun line => Text.hasInk line.toList).mapM Reading.parseDnf)

/-- The alternatives as assumptions: nothing asked is one conjunction of no atoms. -/
def conjunctions (c : Condition) : List Conjunction :=
  if c.isEmpty then [[]] else c.alternatives

/-- Every atom once, in order of appearance. -/
def atoms (c : Condition) : Conjunction :=
  Conjunction.dedupe c.alternatives.flatten

/-- The condition without the atoms of the given keys. -/
def without (c : Condition) (keys : List String) : Condition :=
  build (c.alternatives.map fun atoms => atoms.filter fun a => !keys.contains a.key)

/-- Whether the marker for reliance on the type invariant occurs. -/
def hasMarker (c : Condition) : Bool :=
  c.atoms.any (·.isMarker)

/-- The condition without the marker. -/
def documented (c : Condition) : Condition :=
  c.without ((c.atoms.filter (·.isMarker)).map (·.key))

/-- The part that concerns members of `self`. A single alternative keeps the atoms that touch them; of
several, any one may be the one that holds, so all are kept as soon as one atom touches a member. -/
def restrictedTo (c : Condition) (members : List String) : Condition :=
  let touched := c.atoms.filter fun a => a.selfMembers.any members.contains
  if touched.isEmpty then {}
  else if c.alternatives.length = 1 then build [touched]
  else c

/-- The condition with names replaced. -/
def rename (c : Condition) (r : Renaming) : Except PredicateError Condition := do
  if c.isEmpty then return c
  return build (← c.alternatives.mapM fun atoms => atoms.mapM (·.rename r))

/-- Whether every satisfiable alternative of the assumptions implies some alternative of the condition. -/
def entailedBy (c assumptions : Condition) : Bool :=
  c.isEmpty ||
    assumptions.conjunctions.all fun atoms =>
      !atoms.satisfiable || (atoms.firstUncovered c.alternatives).isNone

/-- The text of a conjunction. -/
def conjunctionText (atoms : Conjunction) : String :=
  " and ".intercalate (atoms.map (·.text))

/-- The text of the condition. -/
def text (c : Condition) : String :=
  match c.alternatives with
  | [] => "<none>"
  | [atoms] => conjunctionText atoms
  | several => " or ".intercalate (several.map fun atoms => "(" ++ conjunctionText atoms ++ ")")

end Condition

end CrateSafety
