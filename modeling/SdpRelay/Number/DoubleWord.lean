import SdpRelay.Number.Scalar

namespace SdpRelay

/-!
# Double word arithmetic

A sum of two scalars, a leading part and a correction that has not been added to
it yet. Row activities and objective values are accumulated in this form, so
that terms of very different size do not cancel to noise. Over an exact field
every correction below is zero, and the operations are plain arithmetic.
-/

/-- The unevaluated sum `high + low`. -/
structure DoubleWord (α : Type) where
  high : α
  low : α
  deriving Repr, DecidableEq

namespace DoubleWord

variable {α : Type} [Scalar α]

/-- The rounded sum of two numbers and what the rounding lost. -/
def exactSum (a b : α) : DoubleWord α :=
  let sum := a + b
  let part := sum - a
  { high := sum, low := (a - (sum - part)) + (b - part) }

/-- As `exactSum`, if the first number is not smaller than the second. -/
def orderedSum (a b : α) : DoubleWord α :=
  let sum := a + b
  { high := sum, low := b - (sum - a) }

/-- The rounded product of two numbers and what the rounding lost. -/
def product (a b : α) : DoubleWord α :=
  let rounded := a * b
  { high := rounded, low := Scalar.mulAdd a b (-rounded) }

/-- A single number. -/
def single (x : α) : DoubleWord α :=
  { high := x, low := 0 }

/-- The double word of zero. -/
def zero : DoubleWord α :=
  single 0

/-- The rounded value of the sum. -/
def value (q : DoubleWord α) : α :=
  q.high + q.low

/--
Move what fits of the correction into the leading part. A leading part that is
infinite or undefined has no correction.
-/
def normalized (high low : α) : DoubleWord α :=
  if Scalar.isFinite high then
    orderedSum high low
  else
    { high := high, low := 0 }

/-- Add a number. -/
def add (q : DoubleWord α) (x : α) : DoubleWord α :=
  let sum := exactSum q.high x
  normalized sum.high (sum.low + q.low)

/-- Subtract a number. -/
def sub (q : DoubleWord α) (x : α) : DoubleWord α :=
  q.add (-x)

/-- Add another double word. -/
def addWord (q r : DoubleWord α) : DoubleWord α :=
  let sum := exactSum q.high r.high
  normalized sum.high (sum.low + q.low + r.low)

/-- Multiply by a number. -/
def scale (q : DoubleWord α) (x : α) : DoubleWord α :=
  let scaled := product q.high x
  normalized scaled.high (scaled.low + q.low * x)

/-- Add the product of two numbers. -/
def addProduct (q : DoubleWord α) (a b : α) : DoubleWord α :=
  let term := product a b
  let sum := q.add term.high
  normalized sum.high (sum.low + term.low)

end DoubleWord

end SdpRelay
