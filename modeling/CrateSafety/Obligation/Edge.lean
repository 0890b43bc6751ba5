import CrateSafety.Config
import CrateSafety.Model.Entity
import CrateSafety.Obligation.Template

/-!
# Obligations

One obligation arises at each operation of a body: the contract of a callee, the requirements of a
primitive operation, or the invariant of a struct, put into the terms of the caller. A justification at the
site discharges the atoms that its claims name.
-/

namespace CrateSafety

/-- Why an obligation cannot be stated. -/
inductive ObligationError where
  /-- A text that has no atoms. -/
  | predicate (error : PredicateError)
  /-- A template that cannot be filled. -/
  | template (error : TemplateError)
  deriving DecidableEq, Repr

/-- An obligation of an item. -/
structure Edge where
  /-- The path of the item. -/
  caller : String
  /-- The operation that it arises at. -/
  site : Site
  /-- The callee, the struct, or the operand. -/
  target : String
  /-- The requirements in the terms of the caller. -/
  required : Condition
  /-- The requirements as declared. -/
  calleeTerms : Condition
  /-- The keys of the atoms that the justification claims. -/
  discharged : List String
  /-- The requirements without the claimed atoms. -/
  outstanding : Condition
  /-- The claims that name no requirement. -/
  unmatched : List Claim
  /-- Whether the operation needs an unsafe context. -/
  requiresUnsafe : Bool

namespace Edge

/-- The kind of operation. -/
def kind (e : Edge) : OperationKind := e.site.operation.kind

/-- The source line. -/
def line (e : Edge) : Option Int := e.site.operation.line

/-- Whether nothing is left to show. -/
def isDischarged (e : Edge) : Bool := e.outstanding.isEmpty

/-- A short description. -/
def describe (e : Edge) : String :=
  match e.kind with
  | .call => "call to `" ++ e.target ++ "`"
  | .structLiteral => "`" ++ e.target ++ "` literal"
  | .fieldWrite =>
    let receiver := (Path.given? e.site.operation.receiver).getD selfName
    "write to `" ++ receiver ++ "." ++ e.site.operation.field.getD "None" ++ "`"
  | .rawDeref => "raw deref of `" ++ e.target ++ "`"
  | .staticMut => "static mut of `" ++ e.target ++ "`"
  | .unionField => "union field of `" ++ e.target ++ "`"

end Edge

/-- A condition in the terms of a caller, with the declared key of every atom in those terms. -/
structure CallerTerms where
  /-- The condition in the terms of the caller. -/
  condition : Condition
  /-- The keys of its atoms with the keys that they had as declared; of several, the first counts. -/
  origins : List (String × String)

namespace CallerTerms

/-- The declared key of an atom. -/
def origin? (t : CallerTerms) (key : String) : Option String :=
  (t.origins.find? fun entry => entry.1 == key).map (·.2)

/-- A condition with names replaced. -/
def ofRenaming (c : Condition) (r : Renaming) : Except PredicateError CallerTerms := do
  let alternatives ← c.alternatives.mapM fun atoms => atoms.mapM fun a => do return (a, ← a.rename r)
  return ⟨.build (alternatives.map fun atoms => atoms.map (·.2)),
    alternatives.flatten.map fun (a, renamed) => (renamed.key, a.key)⟩

/-- A condition stated in the terms of the caller. -/
def same (c : Condition) : CallerTerms :=
  ⟨c, c.atoms.map fun a => (a.key, a.key)⟩

/-- Whether a claim names an atom, in the terms of the caller or as declared, or implies it. -/
def claims (t : CallerTerms) (claim : Claim) (a : Atom) : Bool :=
  let keys := claim.atoms.map (·.key)
  keys.contains a.key || (t.origin? a.key).any keys.contains ||
    (claim.atoms.satisfiable && claim.atoms.entails a)

/-- The keys that a justification discharges, in the order of the atoms. -/
def discharged (t : CallerTerms) (j : Option Justification) : List String :=
  let claims := (j.map (·.claims)).getD []
  (t.condition.atoms.filter fun a => claims.any fun claim => t.claims claim a).map (·.key)

/-- The claims of a justification that name no atom. -/
def unmatched (t : CallerTerms) (j : Option Justification) : List Claim :=
  ((j.map (·.claims)).getD []).filter fun claim => !t.condition.atoms.any (t.claims claim)

/-- The obligation of a condition at a site. -/
def edge (t : CallerTerms) (caller : Item) (site : Site) (target : String) (calleeTerms : Condition)
    (requiresUnsafe : Bool) : Edge :=
  let discharged := t.discharged site.justification
  { caller := caller.path, site := site, target := target, required := t.condition,
    calleeTerms := calleeTerms, discharged := discharged,
    outstanding := t.condition.without discharged, unmatched := t.unmatched site.justification,
    requiresUnsafe := requiresUnsafe }

end CallerTerms

/-- The contract that an item asks of its callers: its documented requirements, if it is unsafe. -/
def Item.contract (i : Item) : Condition :=
  if i.declaredUnsafe then i.requirements.documented else {}

namespace Edge

/-- What stands for the parameters of a callee: the arguments by position, and the receiver. -/
def argumentsFor (callee : Item) (o : Operation) : List (String × String) :=
  let names := Renaming.zip callee.params o.args
  match callee.hasReceiver, Path.given? o.receiver with
  | true, some receiver => Renaming.put names selfName receiver
  | _, _ => names

/-- The obligation of a call: the contract of the callee. -/
def ofCall (caller callee : Item) (site : Site) : Except PredicateError Edge := do
  let t ← CallerTerms.ofRenaming callee.contract ⟨argumentsFor callee site.operation, []⟩
  return t.edge caller site callee.path callee.contract callee.declaredUnsafe

/-- The requirements of a filled template; a blank one has none. -/
def templateForm (template operand : String) :
    Except ObligationError (Option (List Conjunction)) := do
  let line ← (Template.fill template operand).mapError .template
  if Text.hasInk line.toList then
    return some (← (Reading.parseDnf line).mapError .predicate)
  else return none

/-- The obligation of a primitive operation: the configured templates, filled with the operand. -/
def ofPrimitive (config : Config) (caller : Item) (site : Site) : Except ObligationError Edge := do
  let o := site.operation
  let forms ← (config.templatesFor o.kind o.access).mapM fun t => templateForm t o.target
  let required := Condition.ofForms (forms.filterMap id)
  return (CallerTerms.same required).edge caller site o.target required true

/-- What a struct literal or a field write has to establish of the invariant. -/
def invariantOf (s : Struct) (o : Operation) : Condition :=
  match o.kind with
  | .structLiteral => s.invariant
  | _ => s.invariant.restrictedTo (Path.given? o.field).toList

/-- What stands for `self` and its members in the invariant: initialisers, or the written value. -/
def internalsRenaming (o : Operation) : Renaming :=
  match o.kind with
  | .structLiteral => ⟨[], o.fields⟩
  | _ =>
    let receiver := (Path.given? o.receiver).getD selfName
    let written := match Path.given? o.field, Path.given? o.value with
      | some field, some value => [(field, value)]
      | _, _ => []
    ⟨if receiver == selfName then [] else [(selfName, receiver)], written⟩

/-- The obligation of an operation on the internals of a struct: its invariant. -/
def ofInternals (caller : Item) (s : Struct) (site : Site) : Except PredicateError Edge := do
  let invariant := invariantOf s site.operation
  let t ← CallerTerms.ofRenaming invariant (internalsRenaming site.operation)
  return t.edge caller site s.path invariant false

end Edge

end CrateSafety
