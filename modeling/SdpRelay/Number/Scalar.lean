namespace SdpRelay

/-!
# Scalars

The numerical code of this library is written once, over any type with the
operations below. Double precision numbers run it; an exact ordered field reads
the same text as mathematics, with every rounding step an equality.

The comparisons are propositions with decision procedures, so that branches of
the algorithms can be split on in proofs. Order laws are deliberately not part
of the class: double precision numbers have values that compare with nothing.
-/

/-- The arithmetic that the algorithms of this library are written in. -/
class Scalar (α : Type) extends
    Zero α, One α, Add α, Sub α, Neg α, Mul α, Div α,
    LT α, LE α, BEq α, OfScientific α where
  /-- The strict comparison can be decided. -/
  decidableLT : DecidableLT α
  /-- The weak comparison can be decided. -/
  decidableLE : DecidableLE α
  /-- The number of a count. -/
  ofCount : Nat → α
  /-- Absolute value. -/
  abs : α → α
  /-- Larger of two numbers, the second if they are equal, ignoring an operand that is not a number. -/
  larger : α → α → α
  /-- Smaller of two numbers, the second if they are equal, ignoring an operand that is not a number. -/
  smaller : α → α → α
  /-- One with the sign of the argument; zero counts as positive unless it is marked negative. -/
  sign : α → α
  /-- Square root. -/
  sqrt : α → α
  /-- Length of the hypotenuse over two legs. -/
  hypot : α → α → α
  /-- A base raised to an exponent between zero and one. -/
  power : α → α → α
  /-- Product of the first two arguments plus the third, rounded once. -/
  mulAdd : α → α → α → α
  /-- The argument is not a number at all. -/
  isNaN : α → Bool
  /-- The argument is an ordinary number, neither infinite nor undefined. -/
  isFinite : α → Bool
  /-- Distance from one to the next larger number. -/
  machineEpsilon : α
  /-- Sine and cosine of an eighth of a turn. -/
  invSqrtTwo : α

instance instDecidableLTOfScalar {α : Type} [Scalar α] : DecidableLT α :=
  Scalar.decidableLT

instance instDecidableLEOfScalar {α : Type} [Scalar α] : DecidableLE α :=
  Scalar.decidableLE

/--
Whether a number lies at or beyond the sentinel, which is the magnitude from
which bounds and sides stand for "no restriction".
-/
def beyondSentinel
    {α : Type}
    [Scalar α]
    (sentinel x : α) :
    Bool :=
  decide (sentinel ≤ x) || decide (x ≤ -sentinel)

end SdpRelay
