import CrateSafety.Interval

/-!
# Predicate expressions

Expressions keep every blank, newline and comment of their source, so that writing one out gives back its
text. Comparisons, connectives, negation, calls, members, names and numbers have forms of their own; all
other expressions are compounds of literal text and operands.
-/

namespace CrateSafety

/-- The kinds of number literals. -/
inductive NumberKind where
  | integer
  | float
  | imaginary
  deriving DecidableEq, Repr

/-- The two connectives of conditions. -/
inductive Connective where
  | and
  | or
  deriving DecidableEq, Repr

/-- The relations that a comparison may state. -/
inductive Relation where
  /-- One of the six order comparisons. -/
  | order (comparison : Comparison)
  /-- `in`, or `not in`. -/
  | membership (negated : Bool)
  /-- `is`, or `is not`. -/
  | identity (negated : Bool)
  deriving DecidableEq, Repr

namespace Relation

/-- The relation that holds exactly when this one does not. -/
def negated : Relation → Relation
  | order c => order c.negated
  | membership n => membership !n
  | identity n => identity !n

/-- How the relation is written between single spaces. -/
def spelling : Relation → String
  | order c => " " ++ c.symbol ++ " "
  | membership false => " in "
  | membership true => " not in "
  | identity false => " is "
  | identity true => " is not "

end Relation

/-- What a compound expression is. -/
inductive Shape where
  | unary
  | binary
  | conditional
  | subscript
  | starred
  | tuple
  | list
  | set
  | dict
  | comprehension
  | generator
  | lambda
  | assignment
  | await
  | yield
  | strings
  | ellipsis
  /-- The name of a keyword argument. -/
  | label
  /-- A clause of a comprehension: what it runs over, its conditions and the clause after it. -/
  | clause
  /-- A condition of a clause. -/
  | condition
  deriving DecidableEq, Repr

mutual

/-- An expression with its source text. -/
inductive Expr where
  /-- A variable, a constant or a literal name such as `True`. -/
  | name (id : String)
  /-- A number literal as written. -/
  | number (kind : NumberKind) (digits : String)
  /-- A single string literal as written. -/
  | quoted (literal : String)
  /-- The empty tuple, with the text between its parentheses. -/
  | unit (inner : String)
  /-- An expression in parentheses of its own. -/
  | paren (lead : String) (body : Expr) (trail : String)
  /-- A member of an object; `dot` is the dot with its blanks. -/
  | member (object : Expr) (dot : String) (field : String)
  /-- A call; the arguments start at the opening and end with the closing parenthesis. -/
  | call (callee : Expr) (args : Parts)
  /-- A number or expression with a minus sign. -/
  | minus (gap : String) (operand : Expr)
  /-- A negated condition. -/
  | negation (gap : String) (operand : Expr)
  /-- Two conditions joined by a connective. -/
  | junction (left : Expr) (op : Connective) (spelling : String) (right : Expr)
  /-- A single comparison. -/
  | compare (left : Expr) (op : Relation) (spelling : String) (right : Expr)
  /-- A chain of comparisons; `rest` starts with the operand that the first two share. -/
  | chain (left : Expr) (op : Relation) (spelling : String) (rest : Expr)
  /-- Any other expression. -/
  | compound (shape : Shape) (parts : Parts)

/-- The literal text and the operands of an expression, in source order. -/
inductive Parts where
  | nil
  | text (piece : String) (rest : Parts)
  | child (operand : Expr) (rest : Parts)

end

mutual

/-- The source text of an expression. -/
def Expr.render : Expr → String
  | .name id => id
  | .number _ digits => digits
  | .quoted literal => literal
  | .unit inner => "(" ++ inner ++ ")"
  | .paren lead body trail => "(" ++ lead ++ body.render ++ trail ++ ")"
  | .member object dot field => object.render ++ dot ++ field
  | .call callee args => callee.render ++ args.render
  | .minus gap operand => "-" ++ gap ++ operand.render
  | .negation gap operand => "not" ++ gap ++ operand.render
  | .junction left _ spelling right => left.render ++ spelling ++ right.render
  | .compare left _ spelling right => left.render ++ spelling ++ right.render
  | .chain left _ spelling rest => left.render ++ spelling ++ rest.render
  | .compound _ parts => parts.render

/-- The source text of a list of parts. -/
def Parts.render : Parts → String
  | .nil => ""
  | .text piece rest => piece ++ rest.render
  | .child operand rest => operand.render ++ rest.render

end

/-- One list of parts after another. -/
def Parts.append : Parts → Parts → Parts
  | .nil, other => other
  | .text piece rest, other => .text piece (rest.append other)
  | .child operand rest, other => .child operand (rest.append other)

/-- The expression without its own parentheses. -/
def Expr.core : Expr → Expr
  | .paren _ body _ => body.core
  | e => e

/-- Whether an expression is a starred operand. -/
def Expr.isStarred : Expr → Bool
  | .compound .starred _ => true
  | _ => false

/-- The first operand of a comparison or a chain. -/
def Expr.leftmost : Expr → Expr
  | .compare left _ _ _ => left
  | .chain left _ _ _ => left
  | e => e

/-- Whether an expression needs no parentheses wherever an operand may stand. -/
def Expr.isClosed : Expr → Bool
  | .name _ => true
  | .number kind _ => kind != .imaginary
  | .quoted _ => true
  | .unit _ => true
  | .paren _ _ _ => true
  | .member _ _ _ => true
  | .call _ _ => true
  | .compound shape _ => shape = .subscript
  | _ => false

/-- The expression in parentheses, unless it needs none. -/
def Expr.guarded (e : Expr) : Expr :=
  if e.isClosed then e else .paren "" e ""

end CrateSafety
