import CrateSafety.Requirement.Atom
import CrateSafety.Sorting

/-!
# Names hidden from a requirement

A requirement may refer only to what is visible where it is declared. Names with a capital initial are
types and constants and are always visible.
-/

namespace CrateSafety

/-- Texts in order of code points, each once. -/
def sortedNames (names : List String) : List String :=
  Sorting.sort (fun a b => decide (a ≤ b)) (Text.distinct names)

/-- Whether a name has a capital initial. -/
def hasCapital (name : String) : Bool :=
  match name.toList with
  | c :: _ => Text.isCapital c
  | [] => false

/-- The names that an atom refers to although they are not visible, in order. Where the members of `self`
are given, other members are hidden as well. -/
def Atom.hidden (a : Atom) (visible ambient : List String) (members : Option (List String)) :
    List String :=
  let seen := visible ++ ambient
  let names := a.identifiers.filter fun name => !seen.contains name && !hasCapital name
  let fields :=
    match members with
    | some allowed =>
      if a.identifiers.contains selfName && seen.contains selfName then
        (a.selfMembers.filter fun m => !allowed.contains m).map (selfName ++ "." ++ ·)
      else []
    | none => []
  sortedNames (names ++ fields)

end CrateSafety
