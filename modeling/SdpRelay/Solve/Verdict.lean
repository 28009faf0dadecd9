import SdpRelay.OneVariable

namespace SdpRelay

/-!
# Verdicts

How the last solve ended. A verdict is written once the question that it answers
is settled, and every edit of the problem takes it back.
-/

/-- The answer for a problem with one free variable. -/
structure OneVariableResult (α : Type) where
  /-- The problem has a feasible value. -/
  optimal : Bool
  /-- The free variable. -/
  var : Nat
  /-- The objective value with the share of the fixed variables. -/
  objectiveValue : α
  value : α
  /-- An eigenvector, if there is a block. -/
  certificate : Option (List α)
  slope : α
  deriving Repr, DecidableEq

/-- What proves a problem infeasible. -/
inductive InfeasibilityProof where
  /-- Bounds or rows that contradict each other. -/
  | presolve
  /-- A block that is violated when all variables are fixed. -/
  | fixedPoint
  /-- The value of the penalty formulation. -/
  | penalty
  deriving Repr, DecidableEq

/-- How the last solve ended. -/
inductive Verdict (α : Type) where
  | unsolved
  /-- The penalty formulation was tried in vain. -/
  | failed
  | infeasible (proof : InfeasibilityProof)
  /-- All variables are fixed, and all blocks hold. -/
  | allFixed
  | oneVariable (result : OneVariableResult α)
  /-- The solver has the answer, which may be that of the penalty formulation. -/
  | solved (byPenalty : Bool)
  deriving Repr, DecidableEq

namespace Verdict

variable {α : Type}

/-- The solve had a result. -/
def isSolved : Verdict α → Bool
  | unsolved => false
  | failed => false
  | _ => true

/-- The penalty formulation had to be tried. -/
def usesPenalty : Verdict α → Bool
  | failed => true
  | infeasible .penalty => true
  | solved true => true
  | _ => false

/-- The verdict in a few words. -/
def describe : Verdict α → String
  | unsolved => "not solved"
  | failed => "failed"
  | infeasible .fixedPoint => "infeasible (all variables fixed)"
  | infeasible .penalty => "infeasible (penalty formulation)"
  | infeasible .presolve => "infeasible (preprocessing)"
  | allFixed => "all variables fixed"
  | oneVariable _ => "one free variable"
  | solved true => "solved (penalty formulation)"
  | solved false => "solved"

end Verdict

end SdpRelay
