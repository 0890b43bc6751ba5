import CrateSafety.Number.Double

/-!
# Shortest decimal texts of binary64 numbers

The fewest digits that read back as the same number, and of those the nearest ones. The text is
positional for magnitudes from `10^-4` up to `10^16`, and has an exponent beyond.
-/

namespace CrateSafety

/-- A decimal number `mantissa * 10 ^ exponent`. -/
structure Decimal where
  /-- The digits as one whole number. -/
  mantissa : Nat
  /-- The power of ten. -/
  exponent : Int
  deriving DecidableEq, Repr

namespace Decimal

/-- `10 ^ e` as a rational. -/
def powerOfTen (e : Int) : Rat :=
  if 0 ≤ e then ((Nat.pow 10 e.toNat : Nat) : Rat) else mkRat 1 (Nat.pow 10 (-e).toNat)

/-- The exact value. -/
def value (d : Decimal) : Rat :=
  (d.mantissa : Rat) * powerOfTen d.exponent

/-- The exponent of the leading decimal digit of a positive rational. -/
def leadingExponent (q : Rat) : Int :=
  let digits (n : Nat) : Int := (Nat.toDigits 10 n).length
  let guess := digits q.num.natAbs - digits q.den
  if powerOfTen guess ≤ q then guess else guess - 1

/-- The two neighbours of a positive rational among the decimals with `count` digits. -/
def neighbours (q : Rat) (count : Nat) : Decimal × Decimal :=
  let unit := leadingExponent q - (count - 1 : Int)
  let below := (q / powerOfTen unit).floor.toNat
  (⟨below, unit⟩, ⟨below + 1, unit⟩)

/-- Whether a decimal reads back as the given number. -/
def reads (q : Rat) (d : Decimal) : Bool :=
  Double.ofDecimal d.mantissa d.exponent = .finite q

/-- The nearer of two neighbours, and of two that are equally near the one with an even last digit. -/
def nearer (q : Rat) (below above : Decimal) : Decimal :=
  let down := q - below.value
  let up := above.value - q
  if down < up then below
  else if up < down then above
  else if below.mantissa % 2 = 0 then below else above

/-- The nearest decimal with `count` digits that reads back as the given number, if there is one. -/
def withDigits? (q : Rat) (count : Nat) : Option Decimal :=
  let (below, above) := neighbours q count
  match reads q below, reads q above with
  | true, true => some (nearer q below above)
  | true, false => some below
  | false, true => some above
  | false, false => none

/-- The first decimal that reads back, tried with `count` digits and more, for `tries` digit counts. -/
def search (q : Rat) (count : Nat) : Nat → Decimal
  | 0 => ⟨0, 0⟩
  | tries + 1 =>
    match withDigits? q count with
    | some d => d
    | none => search q (count + 1) tries

/-- The shortest decimal that reads back as a positive number; seventeen digits always do. -/
def shortest (q : Rat) : Decimal :=
  search q 1 17

/-- The digits without zeros at the end, at least one. -/
def digits (d : Decimal) : List Char :=
  let all := Nat.toDigits 10 d.mantissa
  match (all.reverse.dropWhile (· == '0')).reverse with
  | [] => ['0']
  | kept => kept

/-- How many digits stand before the decimal point. -/
def pointPosition (d : Decimal) : Int :=
  d.exponent + (Nat.toDigits 10 d.mantissa).length

/-- Zeros. -/
def zeros (n : Int) : List Char :=
  List.replicate n.toNat '0'

/-- An exponent with its sign and at least two digits. -/
def exponentText (e : Int) : List Char :=
  let body := Nat.toDigits 10 e.natAbs
  let padded := if body.length < 2 then '0' :: body else body
  'e' :: (if e < 0 then '-' else '+') :: padded

/-- The text of a positive decimal. -/
def text (d : Decimal) : List Char :=
  let ds := d.digits
  let point := d.pointPosition
  if -4 < point && point ≤ 16 then
    if point ≤ 0 then '0' :: '.' :: zeros (-point) ++ ds
    else if (ds.length : Int) ≤ point then ds ++ zeros (point - ds.length) ++ ['.', '0']
    else ds.take point.toNat ++ '.' :: ds.drop point.toNat
  else
    match ds with
    | [] => []
    | [c] => c :: exponentText (point - 1)
    | c :: rest => c :: '.' :: rest ++ exponentText (point - 1)

end Decimal

namespace Double

/-- The shortest text that reads back as the number. -/
def text : Double → String
  | negInf => "-inf"
  | posInf => "inf"
  | negZero => "-0.0"
  | finite q =>
    if q = 0 then "0.0"
    else if q < 0 then String.ofList ('-' :: (Decimal.shortest (-q)).text)
    else String.ofList (Decimal.shortest q).text

end Double

end CrateSafety
