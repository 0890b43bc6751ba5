import CrateSafety.Predicate.Expr

/-!
# Names in expressions

The variables that an expression refers to, the members it takes of `self`, and the replacement of
variables and members by expressions. Names of called predicates, members and keyword arguments are no
variables, and neither is the head of a path.
-/

namespace CrateSafety

/-- The receiver of a method. -/
def selfName : String := "self"

mutual

/-- The variables of an expression; the heads in `paths` are left out where a member is taken of them. -/
def Expr.names (paths : List String) : Expr → List String
  | .name id => [id]
  | .number _ _ => []
  | .quoted _ => []
  | .unit _ => []
  | .paren _ body _ => body.names paths
  | .member object _ _ =>
    match object.core with
    | .name id => if paths.contains id then [] else [id]
    | _ => object.names paths
  | .call callee args =>
    (match callee.core with
      | .name _ => []
      | _ => callee.names paths) ++ args.names paths
  | .minus _ operand => operand.names paths
  | .negation _ operand => operand.names paths
  | .junction left _ _ right => left.names paths ++ right.names paths
  | .compare left _ _ right => left.names paths ++ right.names paths
  | .chain left _ _ rest => left.names paths ++ rest.names paths
  | .compound _ parts => parts.names paths

/-- The variables of a list of parts. -/
def Parts.names (paths : List String) : Parts → List String
  | .nil => []
  | .text _ rest => rest.names paths
  | .child operand rest => operand.names paths ++ rest.names paths

end

mutual

/-- The members that an expression takes of `self`. -/
def Expr.selfMembers (paths : List String) : Expr → List String
  | .name _ => []
  | .number _ _ => []
  | .quoted _ => []
  | .unit _ => []
  | .paren _ body _ => body.selfMembers paths
  | .member object _ field =>
    match object.core with
    | .name id => if paths.contains id || id != selfName then [] else [field]
    | _ => object.selfMembers paths
  | .call callee args =>
    (match callee.core with
      | .name _ => []
      | _ => callee.selfMembers paths) ++ args.selfMembers paths
  | .minus _ operand => operand.selfMembers paths
  | .negation _ operand => operand.selfMembers paths
  | .junction left _ _ right => left.selfMembers paths ++ right.selfMembers paths
  | .compare left _ _ right => left.selfMembers paths ++ right.selfMembers paths
  | .chain left _ _ rest => left.selfMembers paths ++ rest.selfMembers paths
  | .compound _ parts => parts.selfMembers paths

/-- The members that a list of parts takes of `self`. -/
def Parts.selfMembers (paths : List String) : Parts → List String
  | .nil => []
  | .text _ rest => rest.selfMembers paths
  | .child operand rest => operand.selfMembers paths ++ rest.selfMembers paths

end

/-- What variables and members of `self` are replaced by. -/
structure Substitution where
  /-- Replacements of variables. -/
  names : List (String × Expr)
  /-- Replacements of members of `self`. -/
  selfFields : List (String × Expr)
  /-- Heads of paths, which stay when a member is taken of them. -/
  paths : List String

namespace Substitution

/-- The replacement of a variable. -/
def name? (s : Substitution) (id : String) : Option Expr :=
  s.names.lookup id

/-- The replacement of a member of the object `object`, when that object is `self`. -/
def member? (s : Substitution) (object : Expr) (field : String) : Option Expr :=
  match object.core with
  | .name id => if id == selfName then s.selfFields.lookup field else none
  | _ => none

/-- Whether a member of the object is left alone because the object is the head of a path. -/
def keeps (s : Substitution) (object : Expr) : Bool :=
  match object.core with
  | .name id => s.paths.contains id
  | _ => false

/-- Whether the expression as a whole is replaced. -/
def replaces (s : Substitution) (e : Expr) : Bool :=
  match e.core with
  | .name id => (s.name? id).isSome
  | .member object _ field => (s.member? object field).isSome
  | _ => false

/-- The replacement of an argument that is a variable, its parentheses disregarded. -/
def argument? (s : Substitution) (e : Expr) : Option Expr :=
  match e.core with
  | .name id => s.name? id
  | _ => none

end Substitution

mutual

/-- Replaces variables and members. A replacement is put in parentheses where it needs them and takes the
place of the parentheses around what it replaces. -/
def Expr.subst (s : Substitution) : Expr → Expr
  | .name id => ((s.name? id).map Expr.guarded).getD (.name id)
  | .number kind digits => .number kind digits
  | .quoted literal => .quoted literal
  | .unit inner => .unit inner
  | .paren lead body trail =>
    if s.replaces body then body.subst s else .paren lead (body.subst s) trail
  | .member object dot field =>
    match s.member? object field with
    | some e => e.guarded
    | none => if s.keeps object then .member object dot field else .member (object.subst s) dot field
  | .call callee args =>
    .call
      (match callee.core with
        | .name _ => callee
        | _ => callee.subst s)
      (args.substArgs s)
  | .minus gap operand => .minus gap (operand.subst s)
  | .negation gap operand => .negation gap (operand.subst s)
  | .junction left op spelling right => .junction (left.subst s) op spelling (right.subst s)
  | .compare left op spelling right => .compare (left.subst s) op spelling (right.subst s)
  | .chain left op spelling rest => .chain (left.subst s) op spelling (rest.subst s)
  | .compound shape parts => .compound shape (parts.subst s)

/-- Replaces variables and members in a list of parts. -/
def Parts.subst (s : Substitution) : Parts → Parts
  | .nil => .nil
  | .text piece rest => .text piece (rest.subst s)
  | .child operand rest => .child (operand.subst s) (rest.subst s)

/-- Replaces variables and members in arguments; an argument that is a variable needs no parentheses. -/
def Parts.substArgs (s : Substitution) : Parts → Parts
  | .nil => .nil
  | .text piece rest => .text piece (rest.substArgs s)
  | .child operand rest =>
    .child ((s.argument? operand).getD (operand.subst s)) (rest.substArgs s)

end

end CrateSafety
