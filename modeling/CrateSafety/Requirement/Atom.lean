import CrateSafety.Predicate.Grammar
import CrateSafety.Predicate.Literal
import CrateSafety.Predicate.Names
import CrateSafety.Requirement.Prose

/-!
# Atomic requirements

An atom is an expression or a line of prose with its key, the names it refers to, and what the logic can
see of it: a comparison of an expression with a number, or the key of the atom that it negates.
-/

namespace CrateSafety

/-- A comparison of an expression, given by its key, with a number. -/
structure Bound where
  /-- The key of the compared expression. -/
  subject : String
  /-- The comparison. -/
  op : Comparison
  /-- The number. -/
  value : Double
  deriving DecidableEq, Repr

/-- What an atom was read from. -/
inductive AtomSource where
  /-- An expression without parentheses of its own, and the heads of paths of its line. -/
  | expression (node : Expr) (paths : List String)
  /-- A line of prose, with all its words. -/
  | prose (words : List String)

/-- An atomic safety requirement. -/
structure Atom where
  /-- The text. -/
  text : String
  /-- The canonical key; atoms with one key are one requirement. -/
  key : String
  /-- The variables referred to, each once. -/
  identifiers : List String
  /-- The members of `self` referred to, each once. -/
  selfMembers : List String
  /-- The comparison with a number, if the atom is one. -/
  bound : Option Bound
  /-- The key of the negated atom, if the atom is a negation. -/
  negates : Option String
  /-- What the atom was read from. -/
  source : AtomSource

/-- The called name that marks reliance on the type invariant. -/
def invariantMarker : String := "invariant"

namespace Atom

/-- Whether the atom is a line of prose. -/
def isProse (a : Atom) : Bool :=
  match a.source with
  | .prose _ => true
  | .expression _ _ => false

/-- The words of a prose atom. -/
def words (a : Atom) : List String :=
  match a.source with
  | .prose words => words
  | .expression _ _ => []

/-- The heads of paths of an expression atom. -/
def paths (a : Atom) : List String :=
  match a.source with
  | .prose _ => []
  | .expression _ paths => paths

/-- Whether the atom is the marker for reliance on the type invariant. -/
def isMarker (a : Atom) : Bool :=
  match a.source with
  | .expression (.call callee _) _ =>
    match callee.core with
    | .name id => id == invariantMarker
    | _ => false
  | _ => false

/-- The key of an expression without its parentheses. -/
def strippedKey (e : Expr) : Except PredicateError String := do
  return canonicalKey (← e.strip).render

/-- The bound that an expression states. -/
def boundOf (e : Expr) : Except PredicateError (Option Bound) :=
  match e with
  | .compare left (.order op) _ right => do
    let onRight ← right.numeric?
    let onLeft ← left.numeric?
    match onRight, onLeft with
    | some value, _ => return some ⟨← strippedKey left, op, value⟩
    | none, some value => return some ⟨← strippedKey right, op.swapped, value⟩
    | none, none => return none
  | _ => .ok none

/-- The key of what an expression negates. -/
def negatedKey (e : Expr) : Except PredicateError (Option String) :=
  match e with
  | .negation _ operand => do return some (← strippedKey operand)
  | _ => .ok none

/-- The atom of an expression. -/
def ofExpr (e : Expr) (paths : List String) : Except PredicateError Atom := do
  let node ← e.strip
  let bound ← boundOf node
  let negates ← negatedKey node
  return {
    text := node.render
    key := canonicalKey node.render
    identifiers := Text.distinct (node.names paths)
    selfMembers := Text.distinct (node.selfMembers paths)
    bound := bound
    negates := negates
    source := .expression node paths }

/-- The atom of a line of prose. -/
def ofProse (line : List Char) : Atom :=
  let line := Prose.clean line
  let segments := Prose.segments line
  { text := String.ofList line
    key := Prose.key line
    identifiers := Prose.namesOf line
    selfMembers := Prose.membersOf segments
    bound := none
    negates := none
    source := .prose (Prose.wordsOf segments) }

end Atom

/-- Atoms that hold together. -/
abbrev Conjunction := List Atom

/-- Removes atoms whose key has come before. -/
def Conjunction.dedupe (atoms : Conjunction) : Conjunction :=
  atoms.foldl (fun seen a => if seen.any (·.key == a.key) then seen else seen ++ [a]) []

end CrateSafety
