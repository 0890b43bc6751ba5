import CrateSafety.Predicate.Expr
import CrateSafety.Text.Class

/-!
# Words beside expressions

A word such as `in` or `not` may touch an operand only where the two do not run into each other. Whether
it may is decided by the form of the operand: most operands are shielded by their own parentheses, but a
conditional expression is judged by its first and last operands even inside them. An expression whose
words and operands are in order can be written out.
-/

namespace CrateSafety

/-- Why a predicate has no atoms. -/
inductive PredicateError where
  /-- An expression that cannot be written out. -/
  | unprintable
  /-- A word that touches the start of a function expression, on which there is no rule. -/
  | unruledContact
  /-- A whole number beyond the range of bounds. -/
  | numberTooLarge
  deriving DecidableEq, Repr

/-- What happens to a word that stands directly before an expression. -/
inductive Contact where
  /-- The two stay apart. -/
  | apart
  /-- The two run into each other. -/
  | merged
  /-- There is no rule. -/
  | unruled
  deriving DecidableEq, Repr

/-- The fault of a contact. -/
def Contact.fault? : Contact → Option PredicateError
  | apart => none
  | merged => some .unprintable
  | unruled => some .unruledContact

/-- Whether a piece of text starts with a letter of a word. -/
def startsWord (piece : String) : Bool :=
  match piece.toList with
  | c :: _ => Text.isNameRest c
  | [] => false

/-- Whether a piece of text ends with a letter of a word. -/
def endsWord (piece : String) : Bool :=
  match piece.toList.getLast? with
  | some c => Text.isNameRest c
  | none => false

/-- The contact of a word with a piece of text. -/
def contactOf (piece : String) : Contact :=
  if startsWord piece then .merged else .apart

/-- Whether a form is kept apart from words by nothing but its own parentheses. -/
def Shape.isExposed : Shape → Bool
  | .starred | .generator | .await | .yield => true
  | _ => false

/-- Whether the first operand of a list of parts is starred. -/
def Parts.starredFirst : Parts → Bool
  | .child operand _ => operand.isStarred
  | _ => false

mutual

/-- The contact of a word with the start of an expression. -/
def Expr.start : Expr → Contact
  | .name _ => .merged
  | .number _ _ => .merged
  | .quoted literal => contactOf literal
  | .unit _ => .apart
  | .paren _ body _ => body.startInside
  | .member object _ _ => object.start
  | .call callee _ => callee.start
  | .minus _ _ => .apart
  | .negation _ _ => .merged
  | .junction left _ _ _ => left.start
  | .compare left _ _ _ => left.start
  | .chain left _ _ _ => left.start
  | .compound shape parts =>
    if shape = .lambda then .unruled
    else if shape.isExposed then .merged
    else if shape = .tuple && parts.starredFirst then .apart
    else parts.start

/-- The contact of a word with the start of an expression in parentheses. -/
def Expr.startInside : Expr → Contact
  | .paren _ body _ => body.startInside
  | .compound shape parts =>
    if shape = .lambda then .unruled
    else if shape = .conditional then parts.start
    else .apart
  | _ => .apart

/-- The contact of a word with the start of a list of parts. -/
def Parts.start : Parts → Contact
  | .nil => .apart
  | .text piece _ => contactOf piece
  | .child operand _ => operand.start

end

mutual

/-- Whether a word may stand directly after the expression. -/
def Expr.openEnd : Expr → Bool
  | .name _ => false
  | .number _ _ => true
  | .quoted _ => true
  | .unit _ => true
  | .paren _ body _ => body.openEndInside
  | .member _ _ _ => false
  | .call _ _ => true
  | .minus _ operand => operand.openEnd
  | .negation _ operand => operand.openEnd
  | .junction _ _ _ right => right.openEnd
  | .compare _ _ _ right => right.openEnd
  | .chain _ _ _ rest => rest.openEnd
  | .compound shape parts => !shape.isExposed && parts.openEnd (shape = .tuple)

/-- Whether a word may stand directly after the parentheses around an expression. -/
def Expr.openEndInside : Expr → Bool
  | .paren _ body _ => body.openEndInside
  | .compound shape parts => shape != .conditional || parts.openEnd false
  | _ => true

/-- Whether a word may stand directly after the parts; at the end of a tuple a starred operand counts
without its star. -/
def Parts.openEnd (tuple : Bool) : Parts → Bool
  | .nil => true
  | .text piece .nil => !endsWord piece
  | .child (.compound .starred inner) .nil => tuple && inner.openEnd false
  | .child operand .nil => operand.openEnd
  | .text _ rest => rest.openEnd tuple
  | .child _ rest => rest.openEnd tuple

end

/-- Whether the parts start with a word. -/
def Parts.wordFirst : Parts → Bool
  | .text piece _ => startsWord piece
  | .child (.compound .clause (.text piece _)) _ => startsWord piece
  | .child (.compound .condition (.text piece _)) _ => startsWord piece
  | _ => false

/-- The fault of an operator that touches its right operand. -/
def startFault? (spelling : String) (right : Expr) : Option PredicateError :=
  if endsWord spelling then right.start.fault? else none

/-- The fault of an operator that touches its left operand. -/
def endFault? (left : Expr) (spelling : String) : Option PredicateError :=
  if startsWord spelling && !left.openEnd then some .unprintable else none

/-- The first fault between neighbouring parts. -/
def Parts.contactFault? : Parts → Option PredicateError
  | .nil => none
  | .text piece rest => (if endsWord piece then rest.start.fault? else none).or rest.contactFault?
  | .child operand rest =>
    (if rest.wordFirst && !operand.openEnd then some .unprintable else none).or rest.contactFault?

/-- Whether a string literal is marked as bytes. -/
def isBytes (literal : String) : Bool :=
  (literal.toList.takeWhile Char.isAlpha).any fun c => c == 'b' || c == 'B'

/-- Whether all literals of a sequence agree in being bytes or not; every second part is a literal. -/
def Parts.literalsAgree (bytes : Option Bool) : Parts → Bool
  | .text literal (.text _ rest) => (bytes.getD (isBytes literal) == isBytes literal) &&
      rest.literalsAgree (some (isBytes literal))
  | .text literal _ => bytes.getD (isBytes literal) == isBytes literal
  | _ => true

/-- The fault of a word that is no identifier. -/
def nameFault? (id : String) : Option PredicateError :=
  if Text.isIdentifier id.toList then none else some .unprintable

/-- The fault of a form by itself: a label that is no identifier, or joined literals of two kinds. -/
def Parts.ownFault? (shape : Shape) (parts : Parts) : Option PredicateError :=
  match shape, parts with
  | .label, .text id _ => nameFault? id
  | .strings, parts => if parts.literalsAgree none then none else some .unprintable
  | _, _ => none

mutual

/-- The first reason why an expression cannot be written out; those of operands come before those of the
expression itself. -/
def Expr.fault? : Expr → Option PredicateError
  | .name id => nameFault? id
  | .number _ _ => none
  | .quoted _ => none
  | .unit _ => none
  | .paren _ body _ => body.fault?
  | .member object _ field => object.fault?.or (nameFault? field)
  | .call callee args => callee.fault?.or args.fault?
  | .minus _ operand => operand.fault?
  | .negation gap operand => operand.fault?.or (if gap.isEmpty then operand.start.fault? else none)
  | .junction left _ spelling right =>
    left.fault?.or (right.fault?.or ((endFault? left spelling).or (startFault? spelling right)))
  | .compare left _ spelling right =>
    left.fault?.or (right.fault?.or ((startFault? spelling right).or (endFault? left spelling)))
  | .chain left _ spelling rest =>
    left.fault?.or (rest.fault?.or ((startFault? spelling rest).or (endFault? left spelling)))
  | .compound shape parts => parts.fault?.or (parts.contactFault?.or (parts.ownFault? shape))

/-- The first reason why an operand among the parts cannot be written out. -/
def Parts.fault? : Parts → Option PredicateError
  | .nil => none
  | .text _ rest => rest.fault?
  | .child operand rest => operand.fault?.or rest.fault?

end

/-- An expression that can be written out. -/
def Expr.checked (e : Expr) : Except PredicateError Expr :=
  match e.fault? with
  | some error => .error error
  | none => .ok e

end CrateSafety
