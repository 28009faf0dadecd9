namespace SdpRelay

/-!
# Rounding of quotients

Nearest natural number to a quotient of natural numbers, and the floor of a
square root. Everything that this library rounds, from double precision results
to printed digits, goes through these functions.
-/

/-- Which neighbour an exact half goes to. -/
inductive Tie where
  | toEven
  | up
  deriving Repr, DecidableEq

/-- The natural number nearest to `numerator / denominator`. -/
def roundedQuotient
    (tie : Tie)
    (numerator denominator : Nat) :
    Nat :=
  let quotient := numerator / denominator
  let twice := 2 * (numerator % denominator)
  if twice < denominator then
    quotient
  else if denominator < twice then
    quotient + 1
  else
    match tie with
    | .up => quotient + 1
    | .toEven => quotient + quotient % 2

/-- The largest natural number whose square is at most the argument. -/
def floorSqrt (n : Nat) : Nat :=
  if n < 2 then
    n
  else
    let root := 2 * floorSqrt (n / 4)
    if (root + 1) * (root + 1) ≤ n then root + 1 else root
termination_by n
decreasing_by omega

/-- Numerator and denominator of the power of a base with an integral exponent. -/
def powerRatio
    (base : Nat)
    (exponent : Int) :
    Nat × Nat :=
  if 0 ≤ exponent then
    (Nat.pow base exponent.toNat, 1)
  else
    (1, Nat.pow base (-exponent).toNat)

end SdpRelay
