import CrateSafety.Number.Double

/-!
# Punctured intervals

The six comparisons of an expression with a number, and the interval of values that a list of such
comparisons leaves. Finitely many points may be excluded.
-/

namespace CrateSafety

/-- A comparison of a value with a number. -/
inductive Comparison where
  | lt
  | le
  | gt
  | ge
  | eq
  | ne
  deriving DecidableEq, Repr

namespace Comparison

/-- How the comparison is written. -/
def symbol : Comparison → String
  | lt => "<"
  | le => "<="
  | gt => ">"
  | ge => ">="
  | eq => "=="
  | ne => "!="

/-- The comparison written as `text`. -/
def ofSymbol? (text : String) : Option Comparison :=
  [lt, le, gt, ge, eq, ne].find? fun c => c.symbol == text

/-- The comparison that holds exactly when this one does not. -/
def negated : Comparison → Comparison
  | lt => ge
  | ge => lt
  | gt => le
  | le => gt
  | eq => ne
  | ne => eq

/-- The comparison with its sides exchanged. -/
def swapped : Comparison → Comparison
  | lt => gt
  | gt => lt
  | le => ge
  | ge => le
  | eq => eq
  | ne => ne

end Comparison

/-- An interval of the line with finitely many points taken out. -/
structure Interval where
  /-- The lower end. -/
  lo : Double := .negInf
  /-- Whether the lower end belongs to the interval. -/
  loClosed : Bool := false
  /-- The upper end. -/
  hi : Double := .posInf
  /-- Whether the upper end belongs to the interval. -/
  hiClosed : Bool := false
  /-- Points taken out, each value once, the earliest kept. -/
  excluded : List Double := []
  deriving DecidableEq, Repr

namespace Interval

/-- Whether a value is among the points taken out. -/
def excludes (i : Interval) (value : Double) : Bool :=
  i.excluded.any value.same

/-- Cuts the interval from below. -/
def raise (i : Interval) (closed : Bool) (value : Double) : Interval :=
  if i.lo.lt value || (!closed && i.lo.same value && i.loClosed) then
    { i with lo := value, loClosed := closed }
  else i

/-- Cuts the interval from above. -/
def lower (i : Interval) (closed : Bool) (value : Double) : Interval :=
  if value.lt i.hi || (!closed && i.hi.same value && i.hiClosed) then
    { i with hi := value, hiClosed := closed }
  else i

/-- Intersects the interval with the values that compare as stated with `value`. -/
def constrain (i : Interval) (op : Comparison) (value : Double) : Interval :=
  match op with
  | .lt => i.lower false value
  | .le => i.lower true value
  | .gt => i.raise false value
  | .ge => i.raise true value
  | .eq => (i.raise true value).lower true value
  | .ne => if i.excludes value then i else { i with excluded := i.excluded ++ [value] }

/-- Whether no value is left, as far as the ends and the point between equal ends tell. -/
def isEmpty (i : Interval) : Bool :=
  if i.hi.lt i.lo then true
  else if i.lo.same i.hi then !(i.loClosed && i.hiClosed) || i.excludes i.lo
  else false

/-- Whether every value of the interval compares as stated with `value`. -/
def satisfies (i : Interval) (op : Comparison) (value : Double) : Bool :=
  i.isEmpty ||
    match op with
    | .lt => i.hi.lt value || (i.hi.same value && !i.hiClosed)
    | .le => i.hi.le value
    | .gt => value.lt i.lo || (i.lo.same value && !i.loClosed)
    | .ge => value.le i.lo
    | .eq => i.lo.same i.hi && i.hi.same value
    | .ne =>
      i.excludes value || value.lt i.lo || i.hi.lt value || (value.same i.hi && !i.hiClosed) ||
        (value.same i.lo && !i.loClosed)

/-- Constrains by a comparison given as text; a text that is no comparison constrains nothing. -/
def constrainSpelled (i : Interval) (symbol : String) (value : Double) : Interval :=
  match Comparison.ofSymbol? symbol with
  | some op => i.constrain op value
  | none => i

/-- Tests a comparison given as text; a text that is no comparison holds only of an empty interval. -/
def satisfiesSpelled (i : Interval) (symbol : String) (value : Double) : Bool :=
  match Comparison.ofSymbol? symbol with
  | some op => i.satisfies op value
  | none => i.isEmpty

end Interval

end CrateSafety
