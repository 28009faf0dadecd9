import SdpRelay.Linear.Eigenpair
import SdpRelay.Linear.Triplets

namespace SdpRelay

/-!
# Problems with one free variable

With one variable the problem reads

  minimise `objective * y` such that `y A - C` is positive semidefinite and
  `lower ≤ y ≤ upper`.

The smallest eigenvalue of `y A - C` is a concave function of `y`, and `v' A v`
is a slope of it for a unit eigenvector `v`. Newton's method is started at the
bound that the objective favours; concavity keeps its iterates on the infeasible
side of the first feasible value.
-/

/-- A problem with one free variable and one block. -/
structure OneVariableProblem (α : Type) where
  objective : α
  lower : α
  upper : α
  size : Nat
  /-- The matrix `C`. -/
  constant : Triplets α
  /-- The matrix `A`. -/
  matrix : Triplets α
  feasTolerance : α
  epsilon : α
  deriving Repr, DecidableEq

/-- The answer to a problem with one free variable. -/
structure OneVariableSolution (α : Type) where
  /-- The objective value; at or beyond the sentinel if the problem is infeasible. -/
  objectiveValue : α
  value : α
  /-- Smallest eigenvector at the last iterate. -/
  certificate : List α
  /-- Slope of the smallest eigenvalue at the last iterate. -/
  slope : α
  deriving Repr, DecidableEq

namespace OneVariableSolution

variable {α : Type} [Scalar α]

/-- The problem has no feasible value. -/
def isInfeasible
    (solution : OneVariableSolution α)
    (sentinel : α) :
    Bool :=
  decide (sentinel ≤ solution.objectiveValue)

end OneVariableSolution

namespace OneVariableProblem

variable {α : Type} [Scalar α]

/-- The direction in which the objective gets worse. -/
def direction (problem : OneVariableProblem α) : α :=
  if 0 ≤ problem.objective then 1 else -1

/-- The bound favoured by the objective. -/
def favoured (problem : OneVariableProblem α) : α :=
  if 0 ≤ problem.objective then problem.lower else problem.upper

/-- The other bound. -/
def limit (problem : OneVariableProblem α) : α :=
  if 0 ≤ problem.objective then problem.upper else problem.lower

/-- The matrix `y A - C`. -/
def matrixAt
    (problem : OneVariableProblem α)
    (y : α) :
    SquareMatrix α :=
  problem.constant.addTo
    (problem.matrix.addTo (SquareMatrix.zeros problem.size) y) (-1)

/-- The matrix `A`. -/
def slopeMatrix (problem : OneVariableProblem α) : SquareMatrix α :=
  problem.matrix.addTo (SquareMatrix.zeros problem.size) 1

/-- The solution at a feasible value. -/
def optimalAt
    (problem : OneVariableProblem α)
    (y : α)
    (certificate : List α)
    (slope : α) :
    OneVariableSolution α :=
  {
    objectiveValue := problem.objective * y
    value := y
    certificate := certificate
    slope := slope
  }

/-- The certificate that no value is feasible. -/
def infeasibleAt
    (sentinel y : α)
    (certificate : List α)
    (slope : α) :
    OneVariableSolution α :=
  {
    objectiveValue := sentinel
    value := y
    certificate := certificate
    slope := slope
  }

/-- Newton steps from an iterate, at most a given number; without an answer after that many. -/
def newtonFrom
    (problem : OneVariableProblem α)
    (sentinel : α) :
    Nat → α → Except EigenFault (Option (OneVariableSolution α))
  | 0, _ => .ok none
  | remaining + 1, y =>
      if problem.size = 0 then
        .ok (some (problem.optimalAt y [] 0))
      else do
        let pair ← smallestEigenpair (problem.matrixAt y) true
        let certificate :=
          pair.eigenvector.getD (List.replicate problem.size 0)
        let slope := problem.slopeMatrix.quadraticForm certificate
        if -problem.feasTolerance ≤ pair.eigenvalue then
          return some (problem.optimalAt y certificate slope)
        else if problem.direction * slope ≤ problem.epsilon then
          return some (infeasibleAt sentinel y certificate slope)
        else
          let next := y - pair.eigenvalue / slope
          if 0 < problem.direction * (next - problem.limit) then
            return some (infeasibleAt sentinel next certificate slope)
          else
            newtonFrom problem sentinel remaining next

/-- Solve by Newton's method; without an answer if the favoured bound is infinite. -/
def newton
    (problem : OneVariableProblem α)
    (sentinel : α)
    (iterationLimit : Nat) :
    Except EigenFault (Option (OneVariableSolution α)) :=
  if sentinel ≤ Scalar.abs problem.favoured then
    .ok none
  else
    problem.newtonFrom sentinel iterationLimit problem.favoured

end OneVariableProblem

end SdpRelay
