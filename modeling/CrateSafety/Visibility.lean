import CrateSafety.Path

/-!
# Visibility markers

A marker on a declaration says from which module subtree it can be named. The subtree is given by its
root, and there is no root when code outside the crate can name the declaration too.
-/

namespace CrateSafety

/-- How far a declaration can be named. -/
inductive Reach where
  /-- The declaring module and those beneath it. -/
  | ownModule
  /-- The parent of the declaring module. -/
  | parentModule
  /-- A named ancestor of the declaring module. -/
  | ancestor
  /-- The whole crate. -/
  | wholeCrate
  /-- Everywhere. -/
  | everywhere
  deriving DecidableEq, Repr

namespace Reach

/-- The word of a snapshot for it. -/
def word : Reach → String
  | ownModule => "private"
  | parentModule => "pub_super"
  | ancestor => "pub_in_path"
  | wholeCrate => "pub_crate"
  | everywhere => "pub"

/-- All, from the narrowest to the broadest. -/
def all : List Reach :=
  [ownModule, parentModule, ancestor, wholeCrate, everywhere]

end Reach

/-- A visibility marker. -/
structure Visibility where
  /-- How far the declaration can be named. -/
  reach : Reach := .ownModule
  /-- The named ancestor, if one is given. -/
  path : Option String := none
  deriving DecidableEq, Repr

namespace Visibility

/-- The path of the marker; a marker without one has the empty path. -/
def pathText (v : Visibility) : String :=
  v.path.getD ""

/-- A marker that names an ancestor has a path to name. -/
def hasTarget (v : Visibility) : Bool :=
  v.reach != .ancestor || v.pathText != ""

/-- The root of the subtree that a marker in `module` allows. -/
def scopeRoot (v : Visibility) (module : String) : Scope :=
  match v.reach with
  | .everywhere => none
  | .wholeCrate => some Path.crateRoot
  | .ancestor => v.path
  | .parentModule => some (Path.parentOrRoot module)
  | .ownModule => some module

/-- Whether a marker in `module` names an ancestor of it, or names none. -/
def targetsAncestor (v : Visibility) (module : String) : Bool :=
  v.reach != .ancestor || Path.within module v.pathText

end Visibility

end CrateSafety
