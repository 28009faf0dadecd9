import Mathlib.Tactic.Common
import SdpRelay.OneVariable

namespace SdpRelay

/-!
# How Newton's method stops

Newton's method comes to an answer in one of three ways: at an iterate whose
smallest eigenvalue is not below minus the tolerance, at one whose slope is too
small to get any further, or with an iterate beyond the other bound.  This module
follows the iterates to the one where it stops.
-/

variable {α : Type} [Scalar α]

namespace OneVariableProblem

/-- Why Newton's method comes to an answer. -/
inductive StopReason where
  /-- The smallest eigenvalue at the iterate is not below minus the tolerance. -/
  | feasible
  /-- The slope at the iterate is too small to get any further. -/
  | flat
  /-- The next iterate lies beyond the other bound. -/
  | beyond
  deriving Repr, DecidableEq

variable {problem : OneVariableProblem α}

/-- The vector that an iteration takes from an eigenpair. -/
def certificateOf
    (problem : OneVariableProblem α)
    (pair : Eigenpair α) :
    List α :=
  pair.eigenvector.getD (List.replicate problem.size 0)

/-- The slope of the smallest eigenvalue at that vector. -/
def slopeOf
    (problem : OneVariableProblem α)
    (pair : Eigenpair α) :
    α :=
  problem.slopeMatrix.quadraticForm (problem.certificateOf pair)

/--
With a number of steps left at an iterate, Newton's method stops for some reason
with a solution.  A block without rows has no eigenvalue that could be too small.
-/
inductive Stops
    (problem : OneVariableProblem α)
    (sentinel : α) :
    Nat → α → StopReason → OneVariableSolution α → Prop where
  | empty {remaining : Nat} {y : α}
      (isEmpty : problem.size = 0) :
      problem.Stops sentinel (remaining + 1) y .feasible
        (problem.optimalAt y [] 0)
  | feasible {remaining : Nat} {y : α} {pair : Eigenpair α}
      (nonempty : problem.size ≠ 0)
      (found : smallestEigenpair (problem.matrixAt y) true = .ok pair)
      (above : -problem.feasTolerance ≤ pair.eigenvalue) :
      problem.Stops sentinel (remaining + 1) y .feasible
        (problem.optimalAt y (problem.certificateOf pair)
          (problem.slopeOf pair))
  | flat {remaining : Nat} {y : α} {pair : Eigenpair α}
      (nonempty : problem.size ≠ 0)
      (found : smallestEigenpair (problem.matrixAt y) true = .ok pair)
      (below : ¬ -problem.feasTolerance ≤ pair.eigenvalue)
      (isFlat : problem.direction * problem.slopeOf pair ≤ problem.epsilon) :
      problem.Stops sentinel (remaining + 1) y .flat
        (infeasibleAt sentinel y (problem.certificateOf pair)
          (problem.slopeOf pair))
  | beyond {remaining : Nat} {y next : α} {pair : Eigenpair α}
      (nonempty : problem.size ≠ 0)
      (found : smallestEigenpair (problem.matrixAt y) true = .ok pair)
      (below : ¬ -problem.feasTolerance ≤ pair.eigenvalue)
      (steep :
        ¬ problem.direction * problem.slopeOf pair ≤ problem.epsilon)
      (isNext : next = y - pair.eigenvalue / problem.slopeOf pair)
      (tooFar : 0 < problem.direction * (next - problem.limit)) :
      problem.Stops sentinel (remaining + 1) y .beyond
        (infeasibleAt sentinel next (problem.certificateOf pair)
          (problem.slopeOf pair))
  | further {remaining : Nat} {y next : α} {pair : Eigenpair α}
      {reason : StopReason} {solution : OneVariableSolution α}
      (nonempty : problem.size ≠ 0)
      (found : smallestEigenpair (problem.matrixAt y) true = .ok pair)
      (below : ¬ -problem.feasTolerance ≤ pair.eigenvalue)
      (steep :
        ¬ problem.direction * problem.slopeOf pair ≤ problem.epsilon)
      (isNext : next = y - pair.eigenvalue / problem.slopeOf pair)
      (inside : ¬ 0 < problem.direction * (next - problem.limit))
      (later : problem.Stops sentinel remaining next reason solution) :
      problem.Stops sentinel (remaining + 1) y reason solution

/-- One iteration goes by the eigenpair that it finds. -/
theorem newtonFrom_of_pair
    {y : α}
    {pair : Eigenpair α}
    (nonempty : problem.size ≠ 0)
    (found : smallestEigenpair (problem.matrixAt y) true = .ok pair)
    (sentinel : α)
    (remaining : Nat) :
    let next := y - pair.eigenvalue / problem.slopeOf pair
    problem.newtonFrom sentinel (remaining + 1) y =
      if -problem.feasTolerance ≤ pair.eigenvalue then
        .ok
          (some
            (problem.optimalAt y (problem.certificateOf pair)
              (problem.slopeOf pair)))
      else if problem.direction * problem.slopeOf pair ≤ problem.epsilon then
        .ok
          (some
            (infeasibleAt sentinel y (problem.certificateOf pair)
              (problem.slopeOf pair)))
      else if 0 < problem.direction * (next - problem.limit) then
        .ok
          (some
            (infeasibleAt sentinel next (problem.certificateOf pair)
              (problem.slopeOf pair)))
      else
        problem.newtonFrom sentinel remaining next := by
  intro next
  rw [newtonFrom, if_neg nonempty, found]
  rfl

namespace Stops

variable
  {sentinel : α}
  {remaining : Nat}
  {y : α}
  {reason : StopReason}
  {solution : OneVariableSolution α}

/-- Where Newton's method stops, it gives the solution. -/
theorem gives
    (stops : problem.Stops sentinel remaining y reason solution) :
    problem.newtonFrom sentinel remaining y = .ok (some solution) := by
  induction stops with
  | empty isEmpty =>
      rw [newtonFrom, if_pos isEmpty]
  | feasible nonempty found above =>
      rw [newtonFrom_of_pair nonempty found, if_pos above]
  | flat nonempty found below isFlat =>
      rw [newtonFrom_of_pair nonempty found, if_neg below, if_pos isFlat]
  | beyond nonempty found below steep isNext tooFar =>
      subst isNext
      rw [newtonFrom_of_pair nonempty found, if_neg below, if_neg steep,
        if_pos tooFar]
  | further nonempty found below steep isNext inside _ inductionHypothesis =>
      subst isNext
      rw [newtonFrom_of_pair nonempty found, if_neg below, if_neg steep,
        if_neg inside]
      exact inductionHypothesis

/-- A solution at a feasible iterate has the objective value of that iterate. -/
theorem objectiveValue_of_feasible
    (stops : problem.Stops sentinel remaining y .feasible solution) :
    solution.objectiveValue = problem.objective * solution.value := by
  generalize isReason : StopReason.feasible = reason at stops
  induction stops with
  | empty => rfl
  | feasible => rfl
  | flat => cases isReason
  | beyond => cases isReason
  | further _ _ _ _ _ _ _ inductionHypothesis =>
      exact inductionHypothesis isReason

/-- Any other solution has the sentinel in its place. -/
theorem objectiveValue_of_infeasible
    (stops : problem.Stops sentinel remaining y reason solution)
    (infeasible : reason ≠ .feasible) :
    solution.objectiveValue = sentinel := by
  induction stops with
  | empty => exact absurd rfl infeasible
  | feasible => exact absurd rfl infeasible
  | flat => rfl
  | beyond => rfl
  | further _ _ _ _ _ _ _ inductionHypothesis =>
      exact inductionHypothesis infeasible

end Stops

/-- Newton's method gives a solution only where it stops. -/
theorem stops_of_newtonFrom
    {sentinel : α}
    {remaining : Nat}
    {y : α}
    {solution : OneVariableSolution α}
    (given : problem.newtonFrom sentinel remaining y = .ok (some solution)) :
    ∃ reason, problem.Stops sentinel remaining y reason solution := by
  induction remaining generalizing y with
  | zero =>
      cases given
  | succ remaining inductionHypothesis =>
      by_cases isEmpty : problem.size = 0
      · rw [newtonFrom, if_pos isEmpty] at given
        cases given
        exact ⟨.feasible, .empty isEmpty⟩
      cases found : smallestEigenpair (problem.matrixAt y) true with
      | error fault =>
          rw [newtonFrom, if_neg isEmpty, found] at given
          cases given
      | ok pair =>
          rw [newtonFrom_of_pair isEmpty found] at given
          split at given
          · rename_i above
            cases given
            exact ⟨.feasible, .feasible isEmpty found above⟩
          rename_i below
          split at given
          · rename_i isFlat
            cases given
            exact ⟨.flat, .flat isEmpty found below isFlat⟩
          rename_i steep
          split at given
          · rename_i tooFar
            cases given
            exact ⟨.beyond, .beyond isEmpty found below steep rfl tooFar⟩
          · rename_i inside
            obtain ⟨reason, later⟩ := inductionHypothesis given
            exact
              ⟨reason, .further isEmpty found below steep rfl inside later⟩

/-- It starts at the favoured bound, unless that one is infinite. -/
theorem newton_eq_some_iff
    {sentinel : α}
    {iterationLimit : Nat}
    {solution : OneVariableSolution α} :
    problem.newton sentinel iterationLimit = .ok (some solution) ↔
      ¬ sentinel ≤ Scalar.abs problem.favoured ∧
        ∃ reason,
          problem.Stops sentinel iterationLimit problem.favoured reason
            solution := by
  unfold newton
  constructor
  · intro given
    split at given
    · cases given
    · rename_i finite
      exact ⟨finite, stops_of_newtonFrom given⟩
  · rintro ⟨finite, reason, stops⟩
    rw [if_neg finite]
    exact stops.gives

/-- A solution whose objective value is not the sentinel comes from a feasible iterate. -/
theorem stops_feasible
    {sentinel : α}
    {iterationLimit : Nat}
    {solution : OneVariableSolution α}
    (given :
      problem.newton sentinel iterationLimit = .ok (some solution))
    (differs : solution.objectiveValue ≠ sentinel) :
    problem.Stops sentinel iterationLimit problem.favoured .feasible
      solution := by
  obtain ⟨_, reason, stops⟩ := newton_eq_some_iff.mp given
  by_cases isFeasible : reason = .feasible
  · rw [isFeasible] at stops
    exact stops
  · exact absurd (stops.objectiveValue_of_infeasible isFeasible) differs

end OneVariableProblem

end SdpRelay
