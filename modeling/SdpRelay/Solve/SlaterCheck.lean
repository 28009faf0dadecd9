import SdpRelay.Solve.Run

namespace SdpRelay

/-!
# Checking the Slater condition

The two halves of a Slater check as steps of a solve. What the solver does for
them counts neither as a call nor as time of the solve.
-/

namespace SolveM

variable {σ τ α : Type} [Scalar α] [Solver σ α]

/-- Check the dual side. -/
def findDual
    (task : SolveTask α) :
    SolveM σ τ α (DualFinding α) := do
  match ← observe
      (solvePrepared task (some PenaltyRequest.violationOnly) none
        .unsolved) with
  | .error _ => return .unchecked
  | .ok _ =>
      return DualFinding.ofReport task.settings.feasTolerance (← report)

/-- Check the primal side. -/
def findPrimal
    (task : SolveTask α) :
    SolveM σ τ α PrimalFinding := do
  let work := (← get).work
  if PrimalFinding.allBounded task.sentinel work.bounds.lower
      work.bounds.upper then
    return .bounded
  let timeLeft ← timeLeft task
  let problem :=
    PrimalFinding.auxiliaryProblem task.sentinel task.settings.epsilon
      task.store work
  match ← observe
      (askSolver (Solver.solve
        {
          problem := problem
          penalty := none
          start := none
          setting := .unsolved
          timeLeft := timeLeft
        })) with
  | .error _ => return .unchecked
  | .ok _ =>
      return PrimalFinding.ofReport task.settings.feasTolerance (← report)

/-- Print a finding that explains a failure, or one that is asked for and spells trouble. -/
def announce
    (task : SolveTask α)
    (explains : Bool)
    (finding : SlaterFinding α) :
    SolveM σ τ α Unit := do
  if explains then
    notify (.aborting finding)
  else if task.settings.slaterCheck = .print ∧ finding.verdict ≠ .holds then
    notify (.slater task.problemNumber finding)

/-- Check both sides, the dual one first. -/
def checkSlater
    (task : SolveTask α)
    (explains : Bool) :
    SolveM σ τ α Unit := do
  let dual ← findDual task
  modify fun run =>
    { run with slater := { run.slater with dual := dual.verdict } }
  announce task explains (.dual dual)
  let primal ← findPrimal task
  modify fun run =>
    { run with slater := { run.slater with primal := primal.verdict } }
  announce task explains (.primal primal)

end SolveM

end SdpRelay
