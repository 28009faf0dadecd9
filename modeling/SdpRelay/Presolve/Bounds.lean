import SdpRelay.Number.Scalar

namespace SdpRelay

/-!
# Working bounds

The bounds of all variables during presolve, and for each bound where it comes
from: the stored problem, or one side of a linear row with a single free
variable.
-/

/-- One of the two sides of a linear row. -/
inductive Side where
  | left
  | right
  deriving Repr, DecidableEq

/-- Where a working bound comes from. -/
inductive BoundSource where
  /-- The bound of the stored problem. -/
  | stored
  /-- A side of the linear row with the given number. -/
  | row (index : Nat) (side : Side)
  deriving Repr, DecidableEq

/--
The number by which a source is reported: zero for the stored bound, the row
counted from one for its right side, and the negative of that for its left side.
The number is a word of 64 bits, so it wraps around for rows beyond its range.
-/
def BoundSource.number : BoundSource → Int64
  | .stored => 0
  | .row index .right => Int64.ofNat (index + 1)
  | .row index .left => -Int64.ofNat (index + 1)

/-- The bounds of all variables with their sources. -/
structure Bounds (α : Type) where
  lower : List α
  upper : List α
  lowerSource : List BoundSource
  upperSource : List BoundSource
  deriving Repr, DecidableEq

namespace Bounds

variable {α : Type} [Scalar α]

/-- Stored bounds as working bounds. -/
def ofStored (lower upper : List α) : Bounds α :=
  {
    lower := lower
    upper := upper
    lowerSource := List.replicate lower.length .stored
    upperSource := List.replicate upper.length .stored
  }

/-- The lower bound of a variable. -/
def lowerAt
    (bounds : Bounds α)
    (var : Nat) :
    α :=
  bounds.lower.getD var 0

/-- The upper bound of a variable. -/
def upperAt
    (bounds : Bounds α)
    (var : Nat) :
    α :=
  bounds.upper.getD var 0

/-- The bounds of a variable differ by at most `epsilon`. -/
def Fixed
    (bounds : Bounds α)
    (epsilon : α)
    (var : Nat) :
    Prop :=
  bounds.upperAt var - bounds.lowerAt var ≤ epsilon

instance
    (bounds : Bounds α)
    (epsilon : α)
    (var : Nat) :
    Decidable (bounds.Fixed epsilon var) :=
  inferInstanceAs (Decidable (_ ≤ _))

/-- Replace a lower bound. -/
def setLower
    (bounds : Bounds α)
    (var : Nat)
    (value : α)
    (source : BoundSource) :
    Bounds α :=
  {
    bounds with
    lower := bounds.lower.set var value
    lowerSource := bounds.lowerSource.set var source
  }

/-- Replace an upper bound. -/
def setUpper
    (bounds : Bounds α)
    (var : Nat)
    (value : α)
    (source : BoundSource) :
    Bounds α :=
  {
    bounds with
    upper := bounds.upper.set var value
    upperSource := bounds.upperSource.set var source
  }

/-- The smallest value that a row `left ≤ coef * y ≤ right` allows, or minus the sentinel. -/
def impliedLower (sentinel coef left right : α) : α :=
  let side := if 0 < coef then left else right
  if Scalar.abs side < sentinel then side / coef else -sentinel

/-- The largest value that a row `left ≤ coef * y ≤ right` allows, or the sentinel. -/
def impliedUpper (sentinel coef left right : α) : α :=
  let side := if 0 < coef then right else left
  if Scalar.abs side < sentinel then side / coef else sentinel

/-- Raise the lower bound of a variable if the row improves it by more than `epsilon`. -/
def raiseLower
    (bounds : Bounds α)
    (sentinel epsilon : α)
    (row var : Nat)
    (coef left right : α) :
    Bounds α × Nat :=
  let implied := impliedLower sentinel coef left right
  if bounds.lowerAt var + epsilon < implied then
    (bounds.setLower var implied
      (.row row (if coef < 0 then .right else .left)), 1)
  else
    (bounds, 0)

/-- Drop the upper bound of a variable if the row improves it by more than `epsilon`. -/
def dropUpper
    (bounds : Bounds α)
    (sentinel epsilon : α)
    (row var : Nat)
    (coef left right : α) :
    Bounds α × Nat :=
  let implied := impliedUpper sentinel coef left right
  if implied < bounds.upperAt var - epsilon then
    (bounds.setUpper var implied
      (.row row (if 0 < coef then .right else .left)), 1)
  else
    (bounds, 0)

/--
Tighten the bounds of a variable by the row `left ≤ coef * y_var ≤ right`, and
count the bounds that changed.
-/
def tighten
    (bounds : Bounds α)
    (sentinel epsilon : α)
    (row var : Nat)
    (coef left right : α) :
    Bounds α × Nat :=
  let (raised, raisedCount) :=
    bounds.raiseLower sentinel epsilon row var coef left right
  let (dropped, droppedCount) :=
    raised.dropUpper sentinel epsilon row var coef left right
  (dropped, raisedCount + droppedCount)

end Bounds

end SdpRelay
