import SdpRelay.Number.Scalar

namespace SdpRelay

/-!
# The penalty schedule

When a solver fails, the penalty formulation is tried with growing penalty
parameters and shrinking gap tolerances. Both move geometrically, each step
moving one of them by a fixed factor towards its limit. The schedule knows
nothing of solvers: it only sees what a solve of the penalty formulation
reported.
-/

/-- The smallest gap tolerance that a schedule aims at. -/
def minimalGap {α : Type} [Scalar α] : α := 1e-10

/-- What one solve of the penalty formulation reported. -/
structure PenaltyObservation where
  /-- The solver stands by its answer. -/
  acceptable : Bool
  /-- The answer is feasible without the penalty. -/
  feasible : Bool
  /-- The penalty variable lies at its bound. -/
  atBound : Bool
  deriving Repr, DecidableEq

/-- Nothing has been observed. -/
def PenaltyObservation.none : PenaltyObservation :=
  { acceptable := false, feasible := false, atBound := false }

/-- The next move of a schedule. -/
inductive PenaltyStep where
  | done
  | increasePenalty
  | tightenGap
  deriving Repr, DecidableEq

/-- The name of a move. -/
def PenaltyStep.key : PenaltyStep → String
  | done => "Done"
  | increasePenalty => "IncreasePenalty"
  | tightenGap => "TightenGap"

/--
The move after an observation: an answer that the solver does not stand by, or
one at the bound of the penalty variable, asks for a larger penalty; any other
infeasible answer asks for a smaller gap.
-/
def PenaltyObservation.step (seen : PenaltyObservation) : PenaltyStep :=
  if !seen.acceptable then .increasePenalty
  else if seen.feasible then .done
  else if seen.atBound then .increasePenalty
  else .tightenGap

/-- The current penalty parameter and gap tolerance, with how they move. -/
structure PenaltySchedule (α : Type) where
  penalty : α
  gap : α
  maxPenalty : α
  penaltyFactor : α
  gapFactor : α
  epsilon : α
  deriving Repr, DecidableEq

namespace PenaltySchedule

variable {α : Type} [Scalar α]

/-- The factor that takes the penalty parameter to its maximum in a number of steps. -/
def penaltyRatio
    (penalty maxPenalty : α)
    (increases : Nat) :
    α :=
  if increases = 0 then
    2.0 * maxPenalty / penalty
  else
    Scalar.power (maxPenalty / penalty) (1 / Scalar.ofCount increases)

/-- The factor that takes the gap tolerance to its minimum in a number of steps. -/
def gapRatio
    (gap : α)
    (increases : Nat) :
    α :=
  if increases = 0 then
    0.5 * minimalGap / gap
  else
    Scalar.power (minimalGap / gap) (1 / Scalar.ofCount increases)

/-- The schedule that reaches its limits in a number of steps; values at their limits still move. -/
def start
    (penalty maxPenalty gap : α)
    (increases : Nat)
    (epsilon : α) :
    PenaltySchedule α :=
  let penaltyFactor := penaltyRatio penalty maxPenalty increases
  let gapFactor := gapRatio gap increases
  {
    penalty := penalty
    gap := gap
    maxPenalty := maxPenalty
    penaltyFactor := if 1 < penaltyFactor then penaltyFactor else 2.0
    gapFactor := if gapFactor < 1 then gapFactor else 0.5
    epsilon := epsilon
  }

/-- Neither quantity has passed its limit. -/
def canContinue (schedule : PenaltySchedule α) : Bool :=
  decide (schedule.penalty < schedule.maxPenalty + schedule.epsilon) &&
    decide (0.99 * minimalGap < schedule.gap)

/-- Make a move. -/
def move
    (schedule : PenaltySchedule α) :
    PenaltyStep → PenaltySchedule α
  | .done => schedule
  | .increasePenalty =>
      { schedule with penalty := schedule.penalty * schedule.penaltyFactor }
  | .tightenGap =>
      { schedule with gap := schedule.gap * schedule.gapFactor }

end PenaltySchedule

end SdpRelay
