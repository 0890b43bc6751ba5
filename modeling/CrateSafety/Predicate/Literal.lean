import CrateSafety.Predicate.Contact

/-!
# Values of number literals

Whole numbers of any base and decimal fractions, as binary64 numbers. A whole number beyond the range is
an error, a fraction beyond it is infinite.
-/

namespace CrateSafety

namespace Literal

/-- The value of a digit in any base up to sixteen. -/
def digitValue (c : Char) : Nat :=
  if c.isDigit then c.toNat - 48 else c.toLower.toNat - 87

/-- The number written by digits of a base. -/
def ofDigits (base : Nat) (digits : List Char) : Nat :=
  digits.foldl (fun n c => n * base + digitValue c) 0

/-- Decimal numbers with more digits than this are read as fractions. -/
def maxDigits : Nat := 4300

/-- The value of a whole number without underscores. -/
def integer? (digits : List Char) : Option Double :=
  match digits with
  | '0' :: mark :: rest =>
    match mark.toLower with
    | 'x' => Double.ofNat? (ofDigits 16 rest)
    | 'o' => Double.ofNat? (ofDigits 8 rest)
    | 'b' => Double.ofNat? (ofDigits 2 rest)
    | _ => some (.finite 0)
  | _ =>
    if maxDigits < digits.length then some (Double.ofDecimal (ofDigits 10 digits) 0)
    else Double.ofNat? (ofDigits 10 digits)

/-- The value of an exponent with its sign. -/
def exponent : List Char → Int
  | '-' :: digits => -(ofDigits 10 digits : Int)
  | '+' :: digits => ofDigits 10 digits
  | digits => ofDigits 10 digits

/-- The value of a fraction without underscores. -/
def fraction (digits : List Char) : Double :=
  let mantissa := digits.takeWhile fun c => c != 'e' && c != 'E'
  let power := (digits.dropWhile fun c => c != 'e' && c != 'E').drop 1
  let whole := mantissa.takeWhile (· != '.')
  let places := (mantissa.dropWhile (· != '.')).drop 1
  Double.ofDecimal (ofDigits 10 (whole ++ places)) (exponent power - places.length)

/-- The literal without underscores. -/
def plain (digits : String) : List Char :=
  digits.toList.filter (· != '_')

end Literal

/-- The expression without its parentheses; the empty tuple cannot lose them. -/
def Expr.strip (e : Expr) : Except PredicateError Expr :=
  match e.core with
  | .unit _ => .error .unprintable
  | core => .ok core

/-- The value of a number literal. -/
def Expr.literal? : Expr → Except PredicateError (Option Double)
  | .number .integer digits =>
    match Literal.integer? (Literal.plain digits) with
    | some x => .ok (some x)
    | none => .error .numberTooLarge
  | .number .float digits => .ok (some (Literal.fraction (Literal.plain digits)))
  | _ => .ok none

/-- The value of a number with at most one minus sign, parentheses disregarded. -/
def Expr.numeric? (e : Expr) : Except PredicateError (Option Double) := do
  match ← e.strip with
  | .minus _ operand => return (← (← operand.strip).literal?).map Double.neg
  | core => core.literal?

end CrateSafety
