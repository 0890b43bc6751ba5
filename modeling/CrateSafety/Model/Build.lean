import CrateSafety.Config
import CrateSafety.Model.Entity
import CrateSafety.Requirement.Hidden
import CrateSafety.Sorting
import CrateSafety.Traced

/-!
# Models from snapshots

Modules are registered parents first, every declaration is checked against the structure of the crate, and
its texts are read as conditions and justifications. A requirement that names what is not visible is
noted, or ends the build in strict mode.
-/

namespace CrateSafety

/-- How a snapshot is structurally inconsistent. -/
inductive ModelError where
  /-- A module outside the crate. -/
  | moduleOutside (path : String)
  /-- A module declared twice. -/
  | duplicateModule (path : String)
  /-- A module whose parent is not declared. -/
  | orphanModule (path parent : String)
  /-- A marker that names no ancestor of its module. -/
  | foreignTarget (path target module : String)
  /-- A path declared twice. -/
  | duplicatePath (path : String)
  /-- An item in an undeclared module. -/
  | unknownModule (path module : String)
  /-- An item with an undeclared owner. -/
  | unknownOwner (path owner : String)
  /-- An item of this kind without an owner. -/
  | ownerRequired (path : String) (kind : ItemKind)
  /-- An implementation of an undeclared trait method. -/
  | unknownTraitMethod (path method : String)
  deriving DecidableEq, Repr

/-- The message of a structural fault. -/
def ModelError.message : ModelError → String
  | moduleOutside path => "Module path must start with '" ++ Path.crateRoot ++ "::': '" ++ path ++ "'"
  | duplicateModule path => "Duplicate module '" ++ path ++ "'"
  | orphanModule path parent => "Module '" ++ path ++ "' declared before its parent '" ++ parent ++ "'"
  | foreignTarget path target module =>
    path ++ ": pub(in " ++ target ++ ") must name an ancestor of '" ++ module ++ "'"
  | duplicatePath path => "Duplicate item path '" ++ path ++ "'"
  | unknownModule path module => path ++ ": unknown module '" ++ module ++ "'"
  | unknownOwner path owner => path ++ ": unknown owner '" ++ owner ++ "'"
  | ownerRequired path kind => path ++ ": " ++ kind.name ++ " requires an owner"
  | unknownTraitMethod path method =>
    path ++ ": implements unknown trait method '" ++ method ++ "'"

/-- Why a model cannot be built. -/
inductive BuildError where
  /-- The snapshot is structurally inconsistent. -/
  | structural (error : ModelError)
  /-- A malformed requirement in strict mode. -/
  | malformed (issue : Issue)
  /-- A text that has no atoms. -/
  | predicate (error : PredicateError)
  deriving DecidableEq, Repr

/-- The message of a malformed requirement in strict mode. -/
def Issue.strictMessage (i : Issue) : String :=
  i.path ++ ": requirement '" ++ i.requirement ++ "' references non-visible identifier(s): " ++
    ", ".intercalate i.identifiers

/-- A build: the issues found, and the outcome. -/
abbrev Build := Traced Issue BuildError

namespace Build

/-- A structural check. -/
def require (holds : Bool) (error : ModelError) : Build Unit :=
  if holds then .done () else .fail (.structural error)

/-- A reading of texts. -/
def reading {α : Type} (x : Except PredicateError α) : Build α :=
  .lift .predicate x

/-- Issues: noted, or the end of the build at the first one in strict mode. -/
def report (strict : Bool) (issues : List Issue) : Build Unit :=
  match strict, issues with
  | true, issue :: _ => .fail (.malformed issue)
  | true, [] => .done ()
  | false, _ => ⟨issues, .ok ()⟩

end Build

/-- A marker names an ancestor of the module, if it names one. -/
def Visibility.require (v : Visibility) (module path : String) : Build Unit :=
  Build.require (v.targetsAncestor module) (.foreignTarget path v.pathText module)

namespace Model

/-- The root module. -/
def rootModule : Module := ⟨Path.crateRoot, { reach := .everywhere }⟩

/-- Registers modules after the known ones, each under a known parent. -/
def registerAll (known : List Module) : List Module → Build (List Module)
  | [] => .done known
  | m :: rest =>
    if m.path == Path.crateRoot then registerAll known rest
    else do
      let declared (path : String) : Bool := known.any fun x => x.path == path
      let parent := Path.parentOrRoot m.path
      Build.require (Path.within m.path Path.crateRoot) (.moduleOutside m.path)
      Build.require (!declared m.path) (.duplicateModule m.path)
      Build.require (declared parent) (.orphanModule m.path parent)
      m.visibility.require parent m.path
      registerAll (known ++ [m]) rest

/-- The modules of a snapshot by depth, after the root. -/
def registerModules (modules : List Module) : Build (List Module) :=
  registerAll [rootModule] (Sorting.sort (fun a b => Path.depth a.path ≤ Path.depth b.path) modules)

/-- The paths that a declaration brings in: its own, and those of its trait methods. -/
def declaredPaths : Declaration → List String
  | .trait d => d.path :: d.methods.map fun m => Path.child d.path m.name
  | d => [d.path]

/-- The first path that was seen before. -/
def firstRepeated (seen : List String) : List String → Option String
  | [] => none
  | path :: rest => if seen.contains path then some path else firstRepeated (path :: seen) rest

/-- No path is declared twice. -/
def requireDistinct (declarations : List Declaration) : Build Unit :=
  match firstRepeated [] (declarations.flatMap declaredPaths) with
  | some path => .fail (.structural (.duplicatePath path))
  | none => .done ()

/-- The issues of the atoms of a condition. -/
def issuesOf (config : Config) (path : String) (rule : Rule) (visible : List String)
    (members : Option (List String)) (atoms : Conjunction) : List Issue :=
  atoms.filterMap fun a =>
    let hidden := a.hidden visible config.ambientNames members
    if hidden.isEmpty then none else some ⟨path, rule, a.text, hidden⟩

/-- Documented lines as a condition, their names checked against the visible ones. -/
def documented (config : Config) (path : String) (rule : Rule) (visible : List String)
    (members : Option (List String)) (lines : List String) : Build Condition := do
  let condition ← Build.reading (Condition.ofLines lines)
  Build.report config.strictRequirements (issuesOf config path rule visible members condition.atoms)
  return condition

/-- An operation with its texts read. -/
def site (o : Operation) : Except PredicateError Site := do
  let guards ← Condition.ofLines o.guards
  let justification ← Justification.parse o.justification
  return ⟨o, guards, justification⟩

/-- The operations of a body. -/
def body (operations : List Operation) : Build (List Site) :=
  Build.reading (operations.mapM site)

/-- The members that requirements of a struct's items may name: its fields and its functions. -/
def membersOf (declarations : List Declaration) (owner : String) : Option (List String) :=
  declarations.findSome? fun
    | .struct d =>
      if d.path == owner then
        let functions := declarations.filterMap fun
          | .function f => if f.owner == some owner then some (Path.lastSegment f.path) else none
          | _ => none
        some (d.fields.map (·.name) ++ functions)
      else none
    | _ => none

/-- Whether a path is that of a declared struct or enumeration type. -/
def isOwner (declarations : List Declaration) (path : String) : Bool :=
  declarations.any fun
    | .struct d => d.path == path
    | .enum d => d.path == path
    | _ => false

/-- A struct; bare field names in its invariant become members of `self`. -/
def buildStruct (config : Config) (d : StructDeclaration) : Build Struct := do
  d.visibility.require d.module d.path
  d.fields.forM fun f => f.visibility.require d.module (Path.child d.path f.name)
  let names := d.fields.map (·.name)
  let stated ← documented config d.path .structComment1 (selfName :: names) (some names) d.invariant
  let qualified := Renaming.zip names (names.map fun name => selfName ++ "." ++ name)
  let invariant ← Build.reading (stated.rename ⟨qualified, []⟩)
  return ⟨d.path, d.module, d.visibility, d.fields, invariant, d.line⟩

/-- A method of a trait. -/
def buildTraitMethod (config : Config) (d : TraitDeclaration) (m : TraitMethodDeclaration) :
    Build Item := do
  let path := Path.child d.path m.name
  let visible := if m.receiver then selfName :: m.params else m.params
  let requirements ← documented config path .functionComment2 visible none m.requirements
  let sites ← body m.body
  return {
    path := path, kind := .traitMethod, module := d.module, visibility := d.visibility,
    declaredUnsafe := m.declaredUnsafe, params := m.params, requirements := requirements,
    owner := some d.path, body := sites, constructor := false, implements := none,
    hasReceiver := m.receiver, line := m.line }

/-- A trait with its methods. -/
def buildTrait (config : Config) (d : TraitDeclaration) : Build (Trait × List Item) := do
  d.visibility.require d.module d.path
  let invariant ← documented config d.path .functionComment2 [selfName, "Self"] none d.invariant
  let methods ← d.methods.mapM (buildTraitMethod config d)
  return (⟨d.path, d.module, d.visibility, d.declaredUnsafe, invariant, methods.map (·.path), d.line⟩,
    methods)

/-- A function, method or associated function. -/
def buildFunction (config : Config) (declarations : List Declaration) (d : FunctionDeclaration) :
    Build Item := do
  let owner := Path.given? d.owner
  Build.require (owner.all (isOwner declarations)) (.unknownOwner d.path (d.owner.getD ""))
  let kind := ItemKind.ofFunction d.kind
  Build.require (d.kind == .free || owner.isSome) (.ownerRequired d.path kind)
  d.visibility.require d.module d.path
  let receiver := d.kind == .method
  let visible := if receiver then selfName :: d.params else d.params
  let members := owner.bind (membersOf declarations)
  let requirements ← documented config d.path .functionComment2 visible members d.requirements
  let sites ← body d.body
  return {
    path := d.path, kind := kind, module := d.module, visibility := d.visibility,
    declaredUnsafe := d.declaredUnsafe, params := d.params, requirements := requirements,
    owner := d.owner, body := sites, constructor := d.constructor, implements := d.implements,
    hasReceiver := receiver, line := d.line }

/-- The entities of a declaration: one, and for a trait its methods after it. -/
def buildEntities (config : Config) (modules : List Module) (declarations : List Declaration)
    (d : Declaration) : Build (List Entity) := do
  Build.require (modules.any fun m => m.path == d.module) (.unknownModule d.path d.module)
  match d with
  | .struct d => return [.struct (← buildStruct config d)]
  | .enum d =>
    d.visibility.require d.module d.path
    return [.enum d]
  | .trait d =>
    let (trait, methods) ← buildTrait config d
    return .trait trait :: methods.map .item
  | .impl d =>
    let justification ← Build.reading (Justification.parse d.justification)
    return [.impl ⟨d.path, d.module, d.trait, d.target, d.declaredUnsafe, justification, d.line⟩]
  | .function d => return [.item (← buildFunction config declarations d)]

/-- An item that implements a trait method names a declared one. -/
def requireImplemented (items : List Item) (i : Item) : Build Unit :=
  match i.implements? with
  | none => .done ()
  | some method =>
    let found := items.any fun x => x.path == method && x.kind == .traitMethod
    Build.require found (.unknownTraitMethod i.path method)

/-- The modules and entities of a snapshot. -/
def buildParts (config : Config) (s : Snapshot) : Build (List Module × List Entity) := do
  let modules ← registerModules s.modules
  requireDistinct s.items
  let entities := (← s.items.mapM (buildEntities config modules s.items)).flatten
  let items := entities.filterMap Entity.item?
  items.forM (requireImplemented items)
  return (modules, entities)

/-- The model of a snapshot, with every issue found on the way. -/
def build (config : Config) (s : Snapshot) : Build Model :=
  let parts := buildParts config s
  ⟨parts.notes, parts.outcome.map fun (modules, entities) =>
    { crate := s.name, modules := modules, entities := entities, issues := parts.notes }⟩

end Model

end CrateSafety
