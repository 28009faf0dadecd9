import SdpRelay.Number.DoubleWord

namespace SdpRelay

/-!
# Coefficient tightening

A linear row over integral variables can often be written with smaller
coefficients without losing or gaining an integral point. If a coefficient is
larger than the slack between an extreme activity of the row and a side, it can
be reduced to that slack, with the sides moved to match. Equations are left
alone.
-/

/-- An extreme value of a row over the box of bounds, or the fact that it is infinite. -/
structure Activity (α : Type) where
  sum : DoubleWord α
  infinite : Bool
  deriving Repr, DecidableEq

namespace Activity

variable {α : Type} [Scalar α]

/-- The activity of the row without terms. -/
def zero : Activity α :=
  { sum := DoubleWord.zero, infinite := false }

/-- Add a term at a bound; bounds at the sentinel make the activity infinite. -/
def add
    (activity : Activity α)
    (sentinel coef bound : α) :
    Activity α :=
  if bound < sentinel ∧ -sentinel < bound then
    { activity with sum := activity.sum.addProduct coef bound }
  else
    { activity with infinite := true }

/-- The value of the activity, where an infinite one is the sentinel with a given sign. -/
def value
    (activity : Activity α)
    (sentinel sign : α) :
    α :=
  if activity.infinite then
    sign * sentinel
  else
    activity.sum.value

end Activity

/-- What is known about the variables of a row. -/
structure RowBox (α : Type) where
  sentinel : α
  epsilon : α
  lower : List α
  upper : List α
  integral : List Bool

namespace RowBox

variable {α : Type} [Scalar α]

/-- The lower bound of a variable. -/
def lowerAt
    (box : RowBox α)
    (var : Nat) :
    α :=
  box.lower.getD var 0

/-- The upper bound of a variable. -/
def upperAt
    (box : RowBox α)
    (var : Nat) :
    α :=
  box.upper.getD var 0

/-- Whether a variable is integral. -/
def isIntegral
    (box : RowBox α)
    (var : Nat) :
    Bool :=
  box.integral.getD var false

/-- The least value of a row over the box. -/
def lowest
    (box : RowBox α)
    (terms : List (Nat × α)) :
    Activity α :=
  terms.foldl
    (fun activity (var, coef) =>
      activity.add box.sentinel coef
        (if 0 < coef then box.lowerAt var else box.upperAt var))
    Activity.zero

/-- The greatest value of a row over the box. -/
def highest
    (box : RowBox α)
    (terms : List (Nat × α)) :
    Activity α :=
  terms.foldl
    (fun activity (var, coef) =>
      activity.add box.sentinel coef
        (if 0 < coef then box.upperAt var else box.lowerAt var))
    Activity.zero

/-- The largest magnitude of a coefficient of an integral variable. -/
def largestIntegral
    (box : RowBox α)
    (terms : List (Nat × α)) :
    α :=
  terms.foldl
    (fun largest (var, coef) =>
      if box.isIntegral var then
        Scalar.larger largest (Scalar.abs coef)
      else
        largest)
    0

end RowBox

/-- A row being tightened: its sides, its extreme activities and the number of changes so far. -/
structure RowProgress (α : Type) where
  left : α
  right : α
  lowest : Activity α
  highest : Activity α
  changes : Nat
  deriving Repr, DecidableEq

/-- What happens to one term of a row. -/
inductive TermChange (α : Type) where
  | keep
  | replace (progress : RowProgress α) (coef : α)
  | drop (progress : RowProgress α)

/-- A row after tightening. -/
structure TightenedRow (α : Type) where
  terms : List (Nat × α)
  left : α
  right : α
  leftRedundant : Bool
  rightRedundant : Bool
  changes : Nat
  deriving Repr, DecidableEq

namespace RowProgress

variable {α : Type} [Scalar α]

/-- The left side is a constraint. -/
def leftFinite
    (sentinel left : α) :
    Bool :=
  decide (-sentinel < left)

/-- The right side is a constraint. -/
def rightFinite
    (sentinel right : α) :
    Bool :=
  decide (right < sentinel)

/-- The value of the lowest activity. -/
def lowestValue
    (progress : RowProgress α)
    (sentinel : α) :
    α :=
  progress.lowest.value sentinel (-1)

/-- The value of the highest activity. -/
def highestValue
    (progress : RowProgress α)
    (sentinel : α) :
    α :=
  progress.highest.value sentinel 1

/-- The reduced value of a positive coefficient: the larger of the two slacks that exist. -/
def reducedPositive
    (progress : RowProgress α)
    (sentinel : α)
    (leftIsFinite rightIsFinite : Bool) :
    α :=
  let leftSlack := progress.left - progress.lowestValue sentinel
  let rightSlack := progress.highestValue sentinel - progress.right
  match leftIsFinite, rightIsFinite with
  | true, true => Scalar.larger leftSlack rightSlack
  | true, false => leftSlack
  | false, _ => rightSlack

/-- The reduced value of a negative coefficient, with the roles of the sides exchanged. -/
def reducedNegative
    (progress : RowProgress α)
    (sentinel : α)
    (leftIsFinite rightIsFinite : Bool) :
    α :=
  let leftSlack := progress.lowestValue sentinel - progress.left
  let rightSlack := progress.right - progress.highestValue sentinel
  match leftIsFinite, rightIsFinite with
  | true, true => Scalar.smaller leftSlack rightSlack
  | true, false => leftSlack
  | false, _ => rightSlack

/-- Move a side by a shift. -/
def movedSide
    (shift : DoubleWord α)
    (side : α) :
    α :=
  (shift.add side).value

/--
Replace a coefficient by a reduced one. The sides that exist move by the
difference times the bound at which the activity next to them is attained. A
coefficient that is not larger than `epsilon` in its direction is dropped, and
then the activities stay as they were.
-/
def reduce
    (progress : RowProgress α)
    (epsilon : α)
    (leftIsFinite rightIsFinite positive : Bool)
    (coef reduced leftBound rightBound : α) :
    TermChange α :=
  let difference := (DoubleWord.single reduced).sub coef
  let leftShift := difference.scale leftBound
  let rightShift := difference.scale rightBound
  let moved :=
    {
      progress with
      left :=
        if leftIsFinite then movedSide leftShift progress.left
        else progress.left
      right :=
        if rightIsFinite then movedSide rightShift progress.right
        else progress.right
      changes := progress.changes + 1
    }
  let remains :=
    if positive then decide (epsilon < reduced)
    else decide (reduced < -epsilon)
  if remains then
    .replace
      {
        moved with
        lowest :=
          if leftIsFinite then
            { progress.lowest with sum := progress.lowest.sum.addWord leftShift }
          else
            progress.lowest
        highest :=
          if rightIsFinite then
            { progress.highest with sum := progress.highest.sum.addWord rightShift }
          else
            progress.highest
      }
      reduced
  else
    .drop moved

/-- Decide what happens to one term. -/
def visit
    (progress : RowProgress α)
    (box : RowBox α)
    (leftIsFinite rightIsFinite : Bool)
    (var : Nat)
    (coef : α) :
    TermChange α :=
  let lowestValue := progress.lowestValue box.sentinel
  let highestValue := progress.highestValue box.sentinel
  if box.isIntegral var = false then
    .keep
  else if 0 < coef ∧
      progress.left - box.epsilon ≤ lowestValue + coef ∧
      highestValue - coef ≤ progress.right + box.epsilon then
    let reduced :=
      progress.reducedPositive box.sentinel leftIsFinite rightIsFinite
    if Scalar.abs (reduced - coef) ≤ box.epsilon then
      .keep
    else
      progress.reduce box.epsilon leftIsFinite rightIsFinite true
        coef reduced (box.lowerAt var) (box.upperAt var)
  else if coef < 0 ∧
      progress.left - box.epsilon ≤ lowestValue - coef ∧
      highestValue + coef ≤ progress.right + box.epsilon then
    let reduced :=
      progress.reducedNegative box.sentinel leftIsFinite rightIsFinite
    if Scalar.abs (reduced - coef) ≤ box.epsilon then
      .keep
    else
      progress.reduce box.epsilon leftIsFinite rightIsFinite false
        coef reduced (box.upperAt var) (box.lowerAt var)
  else
    .keep

end RowProgress

/-- Move the last item of a list to its front. -/
def lastToFront {β : Type} : List β → List β
  | [] => []
  | first :: rest =>
      (first :: rest).getLast (List.cons_ne_nil first rest) ::
        (first :: rest).dropLast

/-- Moving the last item to the front keeps the length. -/
theorem length_lastToFront
    {β : Type}
    (items : List β) :
    (lastToFront items).length = items.length := by
  cases items with
  | nil => rfl
  | cons first rest => simp [lastToFront]

namespace RowProgress

variable {α : Type} [Scalar α]

/--
Visit the terms of a row from the first to the last. The place of a dropped
term is taken by the last term of the row, which is then visited there.
-/
def visitAll
    (box : RowBox α)
    (leftIsFinite rightIsFinite : Bool) :
    RowProgress α → List (Nat × α) → RowProgress α × List (Nat × α)
  | progress, [] => (progress, [])
  | progress, (var, coef) :: rest =>
      match progress.visit box leftIsFinite rightIsFinite var coef with
      | .keep =>
          let (final, kept) :=
            visitAll box leftIsFinite rightIsFinite progress rest
          (final, (var, coef) :: kept)
      | .replace next reduced =>
          let (final, kept) :=
            visitAll box leftIsFinite rightIsFinite next rest
          (final, (var, reduced) :: kept)
      | .drop next =>
          visitAll box leftIsFinite rightIsFinite next (lastToFront rest)
termination_by _ terms => terms.length
decreasing_by
  all_goals simp [length_lastToFront]

end RowProgress

namespace RowBox

variable {α : Type} [Scalar α]

/-- Tighten the coefficients of the row `left ≤ terms ≤ right` over a box. -/
def tighten
    (box : RowBox α)
    (terms : List (Nat × α))
    (left right : α) :
    TightenedRow α :=
  let unchanged : TightenedRow α :=
    {
      terms := terms
      left := left
      right := right
      leftRedundant := false
      rightRedundant := false
      changes := 0
    }
  let start : RowProgress α :=
    {
      left := left
      right := right
      lowest := box.lowest terms
      highest := box.highest terms
      changes := 0
    }
  let lowestValue := start.lowestValue box.sentinel
  let highestValue := start.highestValue box.sentinel
  let leftIsFinite := RowProgress.leftFinite box.sentinel left
  let rightIsFinite := RowProgress.rightFinite box.sentinel right
  let leftRedundant :=
    !leftIsFinite || decide (left - box.epsilon ≤ lowestValue)
  let rightRedundant :=
    !rightIsFinite || decide (highestValue ≤ right + box.epsilon)
  let flagged :=
    {
      unchanged with
      leftRedundant := leftRedundant
      rightRedundant := rightRedundant
    }
  let largest := box.largestIntegral terms
  if Scalar.abs (left - right) < box.epsilon then
    unchanged
  else if (terms.all fun (var, _) => !box.isIntegral var) ||
      (start.lowest.infinite && start.highest.infinite) then
    unchanged
  else if leftRedundant && rightRedundant then
    flagged
  else if lowestValue + largest < left - box.epsilon ∨
      right + box.epsilon < highestValue - largest then
    flagged
  else
    let (final, kept) :=
      RowProgress.visitAll box leftIsFinite rightIsFinite start terms
    {
      terms := kept
      left := final.left
      right := final.right
      leftRedundant := leftRedundant
      rightRedundant := rightRedundant
      changes := final.changes
    }

end RowBox

end SdpRelay
