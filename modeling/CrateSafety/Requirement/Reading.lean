import CrateSafety.Requirement.Atom

/-!
# Reading of requirement lines

A documented line is read as an expression and brought into disjunctive normal form, with negation pushed
down to the atoms; a line that is no expression is one atom of prose. Both spellings of the connectives
and of paths are accepted. Operands of call sites are read without reference marks and casts.
-/

namespace CrateSafety

namespace Reading

/-- Replaces each exclamation mark that no equals sign follows by the word for negation. -/
def spellNegations : List Char → List Char
  | [] => []
  | c :: rest =>
    if c == '!' && rest.head? != some '=' then " not ".toList ++ spellNegations rest
    else c :: spellNegations rest

/-- The line in expression spelling. -/
def normalize (cs : List Char) : List Char :=
  let body := Text.dropFinalStops (Text.trim cs)
  let body := Text.replacePair '&' '&' " and ".toList body
  let body := Text.replacePair '|' '|' " or ".toList body
  let body := Text.replacePair ':' ':' ['.'] body
  Text.trim (spellNegations body)

/-- The expression of a line; `none` if it is prose. -/
def expression? (cs : List Char) : Except PredicateError (Option Expr) :=
  match Expr.parse? (normalize cs) with
  | some e => e.checked.map some
  | none => .ok none

/-- The heads of paths in a text, given the character before it. The first argument bounds the number of
steps. -/
def pathHeadsAfter : Nat → Option Char → List Char → List String
  | 0, _, _ => []
  | _ + 1, _, [] => []
  | n + 1, previous, c :: rest =>
    let blocked :=
      match previous with
      | some p => Text.isWordChar p || p == ':'
      | none => false
    if !blocked && Text.isNameStart c then
      let word := c :: rest.takeWhile Text.isWordChar
      let after := rest.dropWhile Text.isWordChar
      match after.dropWhile Text.isBlank with
      | ':' :: ':' :: more => String.ofList word :: pathHeadsAfter n (some ':') more
      | _ => pathHeadsAfter n word.getLast? after
    else pathHeadsAfter n (some c) rest

/-- The heads of paths in a line, each once. -/
def pathHeads (cs : List Char) : List String :=
  Text.distinct (pathHeadsAfter cs.length none cs)

/-- The atom that holds exactly when an expression does not. -/
def negatedAtom (e : Expr) (paths : List String) : Except PredicateError Atom := do
  match ← e.strip with
  | .compare left op _ right =>
    Atom.ofExpr (.compare left op.negated op.negated.spelling right) paths
  | .name "True" => Atom.ofExpr (.name "False") []
  | .name "False" => Atom.ofExpr (.name "True") []
  | core => Atom.ofExpr (.negation " " core) paths

/-- The links of a chain of comparisons. -/
def links : Expr → List Expr
  | .compare left op spelling right => [.compare left op spelling right]
  | .chain left op spelling rest => .compare left op spelling rest.leftmost :: links rest
  | _ => []

/-- Every conjunction of the first list joined with every one of the second. -/
def product (left right : List Conjunction) : List Conjunction :=
  left.flatMap fun a => right.map fun b => Conjunction.dedupe (a ++ b)

/-- The disjunctive normal form of an expression, or of its negation. -/
def dnf (paths : List String) (negate : Bool) : Expr → Except PredicateError (List Conjunction)
  | .paren _ body _ => dnf paths negate body
  | .junction left op _ right => do
    let leftForm ← dnf paths negate left
    let rightForm ← dnf paths negate right
    if (op == .and) != negate then return product leftForm rightForm
    else return leftForm ++ rightForm
  | .negation _ operand => dnf paths (!negate) operand
  | .chain left op spelling rest => do
    let pairs := links (.chain left op spelling rest)
    if negate then pairs.mapM fun p => do return [← negatedAtom p paths]
    else return [← pairs.mapM fun p => Atom.ofExpr p paths]
  | e =>
    if negate then do return [[← negatedAtom e paths]]
    else do return [[← Atom.ofExpr e paths]]

/-- The disjunctive normal form of a line. -/
def parseDnf (text : String) : Except PredicateError (List Conjunction) := do
  match ← expression? text.toList with
  | some e => dnf (pathHeads text.toList) false e
  | none => return [[Atom.ofProse text.toList]]

/-- One reference or pointer mark at the start of an operand. -/
def dropMark? (cs : List Char) : Option (List Char) :=
  match cs with
  | '&' :: rest =>
    match Text.dropStart? ['m', 'u', 't'] (rest.dropWhile Text.isBlank) with
    | some (c :: more) => if Text.isBlank c then some (more.dropWhile Text.isBlank) else some rest
    | _ => some rest
  | '*' :: rest =>
    let body := rest.dropWhile Text.isBlank
    let body := ((Text.dropStart? ['c', 'o', 'n', 's', 't'] body).or
      (Text.dropStart? ['m', 'u', 't'] body)).getD body
    some (body.dropWhile Text.isBlank)
  | _ => none

/-- An operand without its reference and pointer marks. The first argument bounds the number of steps. -/
def dropMarks : Nat → List Char → List Char
  | 0, cs => cs
  | n + 1, cs =>
    match dropMark? cs with
    | some rest => dropMarks n rest
    | none => cs

/-- Whether a cast to the end of the text starts here: a blank, `as`, a blank and no newline beyond. -/
def castFirst (cs : List Char) : Bool :=
  match cs with
  | c :: _ =>
    Text.isBlank c &&
      match Text.dropStart? ['a', 's'] (cs.dropWhile Text.isBlank) with
      | some (d :: rest) => Text.isBlank d && !(rest.dropWhile Text.isBlank).contains '\n'
      | _ => false
  | [] => false

/-- An operand without its casts. -/
def dropCasts : List Char → List Char
  | [] => []
  | c :: rest => if castFirst (c :: rest) then [] else c :: dropCasts rest

/-- The name that stands for an operand that is no expression. -/
def unreadOperand : String := "__opaque_operand__"

/-- The expression of an operand. -/
def operand (text : String) : Except PredicateError Expr :=
  let body := Text.trim text.toList
  let body := dropCasts (dropMarks body.length body)
  match Expr.parse? (Text.replacePair ':' ':' ['.'] body) with
  | some e => e.checked
  | none => .ok (.name unreadOperand)

end Reading

end CrateSafety
