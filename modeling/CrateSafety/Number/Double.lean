/-!
# Binary64 numbers

The numbers that bounds are kept in: signed infinities, a negative zero, and rational values. Rounding is
to the nearest representable value, a half to the even neighbour. There is no NaN.
-/

namespace CrateSafety

/-- A binary64 number other than NaN. -/
inductive Double where
  /-- Negative infinity. -/
  | negInf
  /-- The zero with a sign bit. -/
  | negZero
  /-- A finite value. -/
  | finite (value : Rat)
  /-- Positive infinity. -/
  | posInf
  deriving DecidableEq, Repr

namespace Double

/-- The value of a finite number; infinities count as zero. -/
def rational : Double → Rat
  | finite q => q
  | _ => 0

/-- Strict order by value. -/
def lt : Double → Double → Bool
  | posInf, _ => false
  | _, negInf => false
  | negInf, _ => true
  | _, posInf => true
  | a, b => decide (a.rational < b.rational)

/-- Equality by value: both zeros are one number. -/
def same : Double → Double → Bool
  | posInf, posInf => true
  | negInf, negInf => true
  | posInf, _ => false
  | negInf, _ => false
  | _, posInf => false
  | _, negInf => false
  | a, b => decide (a.rational = b.rational)

/-- Order by value. -/
def le (a b : Double) : Bool :=
  lt a b || same a b

/-- Change of sign. -/
def neg : Double → Double
  | negInf => posInf
  | posInf => negInf
  | negZero => finite 0
  | finite q => if q = 0 then negZero else finite (-q)

/-- The quotient rounded to the nearest integer, a half to the even one. -/
def roundDiv (num den : Nat) : Nat :=
  let q := num / den
  let r := num % den
  if 2 * r < den then q
  else if 2 * r > den then q + 1
  else if q % 2 = 0 then q else q + 1

/-- The exponent of the leading bit of a positive quotient. -/
def leadingExponent (num den : Nat) : Int :=
  let guess : Int := (num.log2 : Int) - (den.log2 : Int)
  let reached := if 0 ≤ guess then den * Nat.pow 2 guess.toNat ≤ num
    else den ≤ num * Nat.pow 2 (-guess).toNat
  if reached then guess else guess - 1

/-- The exponent of the last place of a positive quotient: 53 significant bits, never below `2^-1074`. -/
def unitExponent (num den : Nat) : Int :=
  max (leadingExponent num den - 52) (-1074)

/-- A positive quotient in units of its last place, rounded. -/
def significand (num den : Nat) : Nat :=
  let e := unitExponent num den
  if 0 ≤ e then roundDiv num (den * Nat.pow 2 e.toNat) else roundDiv (num * Nat.pow 2 (-e).toNat) den

/-- `m * 2 ^ e` as a rational. -/
def scaled (m : Nat) (e : Int) : Rat :=
  if 0 ≤ e then ((m * Nat.pow 2 e.toNat : Nat) : Rat) else mkRat m (Nat.pow 2 (-e).toNat)

/-- A non-negative quotient rounded to a binary64 value; `none` when it exceeds the largest one. -/
def round? (num den : Nat) : Option Rat :=
  if num = 0 then some 0
  else
    let value := scaled (significand num den) (unitExponent num den)
    if value < ((Nat.pow 2 1024 : Nat) : Rat) then some value else none

/-- A natural number rounded; `none` when it is too large. -/
def ofNat? (n : Nat) : Option Double :=
  (round? n 1).map finite

/-- The decimal `mantissa * 10 ^ exponent`, rounded; too large a value is infinite. -/
def ofDecimal (mantissa : Nat) (exponent : Int) : Double :=
  let magnitude : Int := exponent + (Nat.toDigits 10 mantissa).length
  if mantissa = 0 || magnitude < -400 then finite 0
  else if 400 < magnitude then posInf
  else
    let rounded :=
      if 0 ≤ exponent then round? (mantissa * Nat.pow 10 exponent.toNat) 1
      else round? mantissa (Nat.pow 10 (-exponent).toNat)
    match rounded with
    | some q => finite q
    | none => posInf

/-- The 64-bit pattern of a non-negative binary64 value. -/
def magnitudeBits (q : Rat) : Nat :=
  if q = 0 then 0
  else
    let num := q.num.natAbs
    let m := significand num q.den
    if m < Nat.pow 2 52 then m
    else (unitExponent num q.den + 1075).toNat * Nat.pow 2 52 + (m - Nat.pow 2 52)

/-- The 64-bit pattern: sign, biased exponent, fraction. -/
def bits : Double → Nat
  | posInf => 0x7ff0000000000000
  | negInf => 0xfff0000000000000
  | negZero => 0x8000000000000000
  | finite q => if q < 0 then 0x8000000000000000 + magnitudeBits q else magnitudeBits q

end Double

end CrateSafety
