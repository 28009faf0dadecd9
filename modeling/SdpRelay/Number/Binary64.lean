import SdpRelay.Number.Rounding
import SdpRelay.Number.Scalar

namespace SdpRelay

/-!
# Double precision numbers

A double is taken apart into a sign, a natural mantissa and a power of two, and
`nearestDouble` puts the double nearest to an exact quotient together. The
operations that the hardware does not offer as single instructions are defined
by their exact value followed by that one rounding: the fused product and sum,
the hypotenuse, and powers with an exponent up to one.
-/

/-- What a double stands for. -/
inductive DoubleShape where
  | undefined
  | infinite (negative : Bool)
  /-- The number `± mantissa * 2 ^ exponent`. -/
  | finite (negative : Bool) (mantissa : Nat) (exponent : Int)
  deriving Repr, DecidableEq

/-- Take the bit pattern of a double apart. -/
def doubleShape (x : Float) : DoubleShape :=
  let bits := x.toBits.toNat
  let negative := decide (Nat.pow 2 63 ≤ bits)
  let biased : Nat := bits / Nat.pow 2 52 % 2048
  let fraction : Nat := bits % Nat.pow 2 52
  if biased = 2047 then
    if fraction = 0 then .infinite negative else .undefined
  else if biased = 0 then
    .finite negative fraction (-1074)
  else
    .finite negative (Nat.pow 2 52 + fraction) ((biased : Int) - 1075)

/-- Whether the sign bit of a double is set. -/
def signBit (x : Float) : Bool :=
  decide (Nat.pow 2 63 ≤ x.toBits.toNat)

/-- A double from its sign and the remaining 63 bits; too large patterns become infinite. -/
def signedDouble
    (negative : Bool)
    (pattern : Nat) :
    Float :=
  let magnitude := min pattern (2047 * Nat.pow 2 52)
  Float.ofBits
    (UInt64.ofNat (if negative then Nat.pow 2 63 + magnitude else magnitude))

/--
The exponent of the last place of the doubles around `numerator / denominator`.

The first guess is the exponent for which the quotient has 53 or 54 binary
digits; the second line corrects it downwards to 53.
-/
def lastPlaceExponent
    (numerator denominator : Nat) :
    Int :=
  let guess : Int :=
    max (-1074) ((numerator.log2 : Int) - (denominator.log2 : Int) - 53)
  let (scaleUp, scaleDown) := powerRatio 2 guess
  if numerator * scaleDown / (denominator * scaleUp) < Nat.pow 2 53 then
    guess
  else
    guess + 1

/-- The double nearest to `± numerator / denominator`, an exact half going to the even mantissa. -/
def nearestDouble
    (negative : Bool)
    (numerator denominator : Nat) :
    Float :=
  if numerator = 0 then
    signedDouble negative 0
  else
    let exponent := lastPlaceExponent numerator denominator
    let (scaleUp, scaleDown) := powerRatio 2 exponent
    let mantissa :=
      roundedQuotient .toEven (numerator * scaleDown) (denominator * scaleUp)
    signedDouble negative ((exponent + 1074).toNat * Nat.pow 2 52 + mantissa)

/-- The double nearest to `± mantissa * 2 ^ exponent`. -/
def nearestDyadic
    (negative : Bool)
    (mantissa : Nat)
    (exponent : Int) :
    Float :=
  let (scaleUp, scaleDown) := powerRatio 2 exponent
  nearestDouble negative (mantissa * scaleUp) scaleDown

/-- The double nearest to `± digits * 10 ^ exponent`. -/
def nearestDecimal
    (negative : Bool)
    (digits : Nat)
    (exponent : Int) :
    Float :=
  let (scaleUp, scaleDown) := powerRatio 10 exponent
  nearestDouble negative (digits * scaleUp) scaleDown

/-- A signed integer from a sign and a magnitude. -/
def signedInt
    (negative : Bool)
    (magnitude : Nat) :
    Int :=
  if negative then -(magnitude : Int) else magnitude

/-- The product of the first two doubles plus the third, rounded once. -/
def fusedMulAdd (a b c : Float) : Float :=
  match doubleShape a, doubleShape b, doubleShape c with
  | .finite signA mantissaA exponentA,
    .finite signB mantissaB exponentB,
    .finite signC mantissaC exponentC =>
      let productExponent := exponentA + exponentB
      let exponent := min productExponent exponentC
      let productSign := signA != signB
      let product :=
        mantissaA * mantissaB * Nat.pow 2 (productExponent - exponent).toNat
      let addend := mantissaC * Nat.pow 2 (exponentC - exponent).toNat
      let total := signedInt productSign product + signedInt signC addend
      if total = 0 then
        signedDouble (productSign && signC) 0
      else
        nearestDyadic (decide (total < 0)) total.natAbs exponent
  | .finite _ _ _, .finite _ _ _, _ => c
  | _, _, _ => a * b + c

/-- Extra binary digits carried below the last place when a root is taken. -/
def guardDigits : Nat := 64

/--
The double nearest to the square root of `n * 4 ^ exponent`.

The root is taken with `guardDigits` more digits than `n` has; if it is not
exact, half a unit below the last digit stands for the part that was cut off.
-/
def nearestSqrt
    (n : Nat)
    (exponent : Int) :
    Float :=
  let scaled := n * Nat.pow 4 guardDigits
  let root := floorSqrt scaled
  let sticky := if root * root = scaled then 0 else 1
  nearestDyadic false (2 * root + sticky) (exponent - guardDigits - 1)

/-- Square root of the sum of two squares, rounded once. -/
def hypotenuse (a b : Float) : Float :=
  match doubleShape a, doubleShape b with
  | .infinite _, _ => Float.ofBits 0x7FF0000000000000
  | _, .infinite _ => Float.ofBits 0x7FF0000000000000
  | .finite _ mantissaA exponentA, .finite _ mantissaB exponentB =>
      let exponent := min exponentA exponentB
      let legA := mantissaA * Nat.pow 2 (exponentA - exponent).toNat
      let legB := mantissaB * Nat.pow 2 (exponentB - exponent).toNat
      nearestSqrt (legA * legA + legB * legB) exponent
  | _, _ => a + b

/-- Binary digits after the point that powers are computed with. -/
def powerDigits : Nat := 256

/--
Multiply together the repeated square roots of a fixed point base that the
binary digits of an exponent select.

The exponent is `digits / 2 ^ count`. The first root belongs to its highest
binary digit after the point, the next root to the next digit, and so on.
-/
def selectedRoots :
    (count digits : Nat) → (base product : Nat) → Nat
  | 0, _, _, product => product
  | count + 1, digits, base, product =>
      let root := floorSqrt (base * Nat.pow 2 powerDigits)
      let next :=
        if digits / Nat.pow 2 count % 2 = 1 then
          product * root / Nat.pow 2 powerDigits
        else
          product
      selectedRoots count digits root next

/-- A positive double raised to the exponent `mantissa * 2 ^ exponent` between zero and one. -/
def positivePower
    (base : Nat × Int)
    (exponent : Nat × Int) :
    Float :=
  let (scaleUp, scaleDown) := powerRatio 2 base.2
  let numerator := base.1 * scaleUp
  let denominator := scaleDown
  let larger := max numerator denominator
  let smaller := min numerator denominator
  let fixedPoint := larger * Nat.pow 2 powerDigits / smaller
  let result :=
    selectedRoots (-exponent.2).toNat exponent.1
      fixedPoint (Nat.pow 2 powerDigits)
  if denominator ≤ numerator then
    nearestDouble false result (Nat.pow 2 powerDigits)
  else
    nearestDouble false (Nat.pow 2 powerDigits) result

/--
A double raised to an exponent between zero and one.

Infinite bases stay infinite, zero stays zero, and a negative base has no
such power unless the exponent is one.
-/
def fractionalPower (base exponent : Float) : Float :=
  if exponent == 1.0 then
    base
  else
    match doubleShape base, doubleShape exponent with
    | .undefined, _ => base
    | .infinite _, _ => Float.ofBits 0x7FF0000000000000
    | .finite negative mantissa scale, .finite false digits place =>
        if mantissa = 0 then
          0.0
        else if negative then
          0.0 / 0.0
        else
          positivePower (mantissa, scale) (digits, place)
    | _, _ => 0.0 / 0.0

/--
Larger of two doubles, ignoring an operand that is not a number. Of two equal
ones, which are zeros of different signs if they differ at all, it is the second.
-/
def largerDouble (a b : Float) : Float :=
  if a.isNaN || decide (a ≤ b) then b else a

/--
Smaller of two doubles, ignoring an operand that is not a number. Of two equal
ones, which are zeros of different signs if they differ at all, it is the second.
-/
def smallerDouble (a b : Float) : Float :=
  if a.isNaN || decide (b ≤ a) then b else a

/-- One with the sign bit of the argument. -/
def signOfDouble (x : Float) : Float :=
  if x.isNaN then x
  else if signBit x then -1.0
  else 1.0

/-- The largest finite double. -/
def largestDouble : Float :=
  Float.ofBits 0x7FEFFFFFFFFFFFFF

/-- Positive infinity among the doubles. -/
def infiniteDouble : Float :=
  Float.ofBits 0x7FF0000000000000

instance : Scalar Float where
  zero := 0.0
  one := 1.0
  decidableLT := fun a b => inferInstanceAs (Decidable (a < b))
  decidableLE := fun a b => inferInstanceAs (Decidable (a ≤ b))
  ofCount := fun n => nearestDouble false n 1
  abs := Float.abs
  larger := largerDouble
  smaller := smallerDouble
  sign := signOfDouble
  sqrt := Float.sqrt
  hypot := hypotenuse
  power := fractionalPower
  mulAdd := fusedMulAdd
  isNaN := Float.isNaN
  isFinite := Float.isFinite
  machineEpsilon := Float.ofBits 0x3CB0000000000000
  invSqrtTwo := 0.70710678118654752440

end SdpRelay
