import SdpRelay.Number.Rounding

namespace SdpRelay

/-!
# Decimal digits of binary numbers

A positive number `mantissa * 2 ^ exponent` is brought into decimal digits in
one of three ways: the fewest digits that read back as the same double, a given
number of significant digits, or a given number of places after the point. All
three compare exact quotients of natural numbers.
-/

/-- The number `digits * 10 ^ exponent`. -/
structure Decimal where
  digits : Nat
  exponent : Int
  deriving Repr, DecidableEq

namespace Decimal

/-- Drop trailing zeros of the digits. -/
def stripped (d : Decimal) : Decimal :=
  if d.digits ≠ 0 ∧ d.digits % 10 = 0 then
    stripped { digits := d.digits / 10, exponent := d.exponent + 1 }
  else
    d
termination_by d.digits
decreasing_by omega

/-- How many decimal digits a natural number is written with. -/
def digitCount (n : Nat) : Nat :=
  (Nat.toDigits 10 n).length

/-- The power of ten of the leading digit of a positive quotient. -/
def leadingExponent
    (numerator denominator : Nat) :
    Int :=
  if denominator ≤ numerator then
    (digitCount (numerator / denominator) : Int) - 1
  else
    let count := digitCount (denominator / numerator)
    if numerator * Nat.pow 10 (count - 1) = denominator then
      1 - (count : Int)
    else
      -(count : Int)

/-- A positive quotient rounded to a multiple of `10 ^ place`, a half going to the even one. -/
def atPlace
    (numerator denominator : Nat)
    (place : Int) :
    Decimal :=
  let (scaleUp, scaleDown) := powerRatio 10 place
  {
    digits :=
      roundedQuotient .toEven
        (numerator * scaleDown) (denominator * scaleUp)
    exponent := place
  }

/-- A positive quotient rounded to a number of significant digits. -/
def significant
    (count numerator denominator : Nat) :
    Decimal :=
  let place := leadingExponent numerator denominator - count + 1
  let rounded := atPlace numerator denominator place
  if rounded.digits = Nat.pow 10 count then
    { digits := Nat.pow 10 (count - 1), exponent := place + 1 }
  else
    rounded

/--
The multiple of `10 ^ place` nearest to a double, if a multiple reads back as
that double.

Numbers are counted in quarters of the double's last place: the double is
`4 * mantissa`, and what reads back as it reaches from `low` to `high`, the
ends belonging to it if the mantissa is even.
-/
def readingBackAt
    (tie : Tie)
    (mantissa low high : Nat)
    (exponent place : Int) :
    Option Nat :=
  let (unitUp, unitDown) := powerRatio 2 (exponent - 2)
  let (gridUp, gridDown) := powerRatio 10 place
  let unit := unitUp * gridDown
  let grid := unitDown * gridUp
  let reads := fun candidate : Nat =>
    if mantissa % 2 = 0 then
      decide (low * unit ≤ candidate * grid) &&
        decide (candidate * grid ≤ high * unit)
    else
      decide (low * unit < candidate * grid) &&
        decide (candidate * grid < high * unit)
  let below := 4 * mantissa * unit / grid
  match reads below, reads (below + 1) with
  | true, true => some (roundedQuotient tie (4 * mantissa * unit) grid)
  | true, false => some below
  | false, true => some (below + 1)
  | false, false => none

/--
The fewest digits that read back as the positive double
`mantissa * 2 ^ exponent`, and among those the nearest to it.
-/
def shortest
    (tie : Tie)
    (mantissa : Nat)
    (exponent : Int) :
    Decimal :=
  let narrowBelow := mantissa = Nat.pow 2 52 ∧ -1074 < exponent
  let low := 4 * mantissa - (if narrowBelow then 1 else 2)
  let high := 4 * mantissa + 2
  let (unitUp, unitDown) := powerRatio 2 exponent
  let lead := leadingExponent (mantissa * unitUp) unitDown
  let found :=
    (List.range 17).findSome? fun (count : Nat) =>
      (readingBackAt tie mantissa low high exponent (lead - count)).map
        fun digits => ({ digits := digits, exponent := lead - count } : Decimal)
  match found with
  | some decimal => decimal.stripped
  | none => (significant 17 (mantissa * unitUp) unitDown).stripped

end Decimal

end SdpRelay
