import CrateSafety.Config
import CrateSafety.Model.Entity

/-!
# Scopes and soundness boundaries

The scope of an entity is the module subtree from which it can be named, after all enclosing markers are
taken into account. The soundness boundary of a struct is the region in which its internals may be reached
freely.
-/

namespace CrateSafety

/-- Why a path has no scope. -/
inductive ScopeError where
  /-- The path names nothing. -/
  | unknown (path : String)
  /-- The scopes on the way from the path lead back to themselves. -/
  | endless (path : String)
  deriving DecidableEq, Repr

/-- Who looks at an entity. -/
inductive Observer where
  /-- Code outside the crate. -/
  | outside
  /-- Code in a module. -/
  | inModule (path : String)
  deriving DecidableEq, Repr

/-- The observer of a text: the word for code outside the crate, or a module. -/
def Observer.ofText (text : String) : Observer :=
  if text == "<external>" then .outside else .inModule text

/-- Whether a scope admits an observer. -/
def Scope.admits : Scope → Observer → Bool
  | none, _ => true
  | some _, .outside => false
  | some root, .inModule path => Path.within path root

namespace Model

/-- The scope of a module by the markers of all modules around it; `fuel` bounds their number. -/
def moduleScopeWithin (m : Model) : Nat → String → Except ScopeError Scope
  | 0, path => .error (.endless path)
  | fuel + 1, path =>
    if path == Path.crateRoot then .ok none
    else
      match m.module? path with
      | none => .error (.unknown path)
      | some declared => do
        let parent := Path.parentOrRoot path
        let outer ← moduleScopeWithin m fuel parent
        return Scope.narrowest (declared.visibility.scopeRoot parent) outer

/-- The scope of a module. Each parent has a shorter path, which bounds the way to the root. -/
def moduleScope (m : Model) (path : String) : Except ScopeError Scope :=
  m.moduleScopeWithin (path.length + 1) path

/-- The scope that a marker in a module allows, bounded by the scope of the module. -/
def markedScope (m : Model) (v : Visibility) (module : String) : Except ScopeError Scope := do
  return Scope.narrowest (v.scopeRoot module) (← m.moduleScope module)

/-- The enumeration type that a path is a variant of. -/
def variantOwner? (m : Model) (path : String) : Option String :=
  (Path.parent? path).filter fun parent =>
    (m.enum? parent).any fun e => e.variants.contains (Path.lastSegment path)

/-- The scope of a path; `fuel` bounds the entities on the way. -/
def scopeWithin (m : Model) : Nat → String → Except ScopeError Scope
  | 0, path => .error (.endless path)
  | fuel + 1, path =>
    if (m.module? path).isSome then m.moduleScope path
    else
      match m.entity? path with
      | some (.item i) =>
        if i.kind == .traitMethod then scopeWithin m fuel (i.owner.getD "")
        else
          match i.implements? with
          | some method => scopeWithin m fuel method
          | none => do
            let own ← m.markedScope i.visibility i.module
            match i.owner? with
            | some owner => return Scope.narrowest own (← scopeWithin m fuel owner)
            | none => return own
      | some (.impl i) =>
        if (m.entity? i.target).isSome then scopeWithin m fuel i.target else m.moduleScope i.module
      | some (.struct s) => m.markedScope s.visibility s.module
      | some (.trait t) => m.markedScope t.visibility t.module
      | some (.enum e) => m.markedScope e.visibility e.module
      | none =>
        match m.variantOwner? path with
        | some owner => scopeWithin m fuel owner
        | none => .error (.unknown path)

/-- The scope of a module, entity or enumeration variant. Trait methods and their implementations have
the scope of the trait, variants that of their type, and implementation blocks that of their target. -/
def scopeOf (m : Model) (path : String) : Except ScopeError Scope :=
  m.scopeWithin (m.entities.length + 2) path

/-- Whether an observer can name a path. -/
def canSee (m : Model) (path : String) (observer : Observer) : Except ScopeError Bool := do
  return (← m.scopeOf path).admits observer

/-- The scope of a field: its marker, bounded by the scope of the struct. -/
def fieldScope (m : Model) (s : Struct) (name : String) : Except ScopeError Scope :=
  match s.field? name with
  | none => .error (.unknown (Path.child s.path name))
  | some f => do return Scope.narrowest (f.visibility.scopeRoot s.module) (← m.scopeOf s.path)

end Model

/-- The region in which the internals of a struct may be reached freely. -/
structure Boundary where
  /-- The path of the struct. -/
  struct : String
  /-- The module that defines it. -/
  module : String
  /-- The criterion. -/
  criterion : Criterion
  deriving DecidableEq, Repr

namespace Boundary

/-- Whether an item lies inside: an item of the struct, of its module, or any item of the crate. -/
def contains (b : Boundary) (i : Item) : Bool :=
  match b.criterion with
  | .struct => i.owner == some b.struct
  | .module => Path.within i.module b.module
  | .crate => true

/-- Whether something of a scope can be named outside. Code beside the implementation blocks is always
outside those. -/
def escapes (b : Boundary) (scope : Scope) : Bool :=
  match b.criterion with
  | .struct => true
  | .module => scope.all fun root => !Path.within root b.module
  | .crate => scope.isNone

/-- The boundary that fields are held to: fields cannot be more private than their module. -/
def forFields (b : Boundary) : Boundary :=
  if b.criterion == .struct then { b with criterion := .module } else b

/-- The description. -/
def text (b : Boundary) : String :=
  b.criterion.name ++ "-level boundary of " ++ b.struct

end Boundary

namespace Model

/-- The boundary of a struct under a criterion. -/
def boundary? (m : Model) (struct : String) (criterion : Criterion) : Option Boundary :=
  (m.struct? struct).map fun s => ⟨struct, s.module, criterion⟩

/-- Whether an item can be named outside a boundary. -/
def exposedOutside (m : Model) (i : Item) (b : Boundary) : Except ScopeError Bool := do
  return b.escapes (← m.scopeOf i.path)

/-- Whether a field can be named outside a boundary. -/
def fieldExposed (m : Model) (s : Struct) (name : String) (b : Boundary) : Except ScopeError Bool := do
  return b.forFields.escapes (← m.fieldScope s name)

end Model

end CrateSafety
