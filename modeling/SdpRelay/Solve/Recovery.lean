import SdpRelay.PenaltySchedule
import SdpRelay.Solve.SlaterCheck

namespace SdpRelay

/-!
# Recovery by the penalty formulation

When the solver fails on a problem, the penalty formulation without objective
first tells whether the problem is infeasible. If it is not, the penalty
formulation is solved with larger and larger penalty parameters and smaller and
smaller gap tolerances, until an answer is feasible for the problem itself or
the schedule or the time has run out.
-/

/-- How far the recovery of a problem has come. -/
structure Escalation (α : Type) where
  schedule : PenaltySchedule α
  /-- What the last penalty formulation showed. -/
  seen : PenaltyObservation
  /-- The solver works with a smaller gap tolerance than the settings ask for. -/
  gapTightened : Bool
  deriving Repr, DecidableEq

namespace Escalation

variable {α : Type} [Scalar α]

/-- The start of a recovery. -/
def start (settings : Settings α) : Escalation α :=
  {
    schedule :=
      PenaltySchedule.start settings.penalty settings.maxPenalty
        settings.gapTolerance settings.penaltyIncreases.toNat settings.epsilon
    seen := PenaltyObservation.none
    gapTightened := false
  }

/-- An answer is acceptable and feasible for the problem itself. -/
def succeeded (escalation : Escalation α) : Bool :=
  escalation.seen.acceptable && escalation.seen.feasible

/-- The penalty formulation to solve next. -/
def request (escalation : Escalation α) : PenaltyRequest α :=
  {
    penalty := escalation.schedule.penalty
    withObjective := true
    bounded := true
  }

/-- More rounds than any schedule of a session has. -/
def roundLimit : Nat := UInt64.size

end Escalation

namespace SolveM

variable {σ τ α : Type} [Scalar α] [Solver σ α]

/-- A report on the penalty formulation without objective proves the problem infeasible. -/
def provesInfeasible
    (sentinel : α)
    (settings : Settings α)
    (report : SolverReport α) :
    Bool :=
  let threshold :=
    settings.infeasibilityFactor *
      Scalar.larger settings.feasTolerance settings.gapTolerance
  let value :=
    if report.solved then
      match report.objective with
      | .ok objective => objective
      | .error _ => -sentinel
    else
      -sentinel
  (report.flags.optimal && decide (threshold < value)) ||
    (report.solved && report.flags.dualInfeasible)

/-- Take over the objective value of an acceptable penalty solve if it improves the bound. -/
def improveBound
    (settings : Settings α) :
    SolveM σ τ α Unit :=
  modify fun run =>
    let report := Solver.report run.solver
    match report.flags.acceptable, report.objective with
    | true, .ok value =>
        if run.bestBound + settings.gapTolerance < value then
          { run with bestBound := value }
        else
          run
    | _, _ => run

/-- Solve one penalty formulation and move the schedule. -/
def escalateOnce
    (task : SolveTask α)
    (escalation : Escalation α) :
    SolveM σ τ α (Escalation α) := do
  let outcome ←
    solvePrepared task (some escalation.request) task.start task.startSetting
  addUsage
  let seen : PenaltyObservation :=
    {
      acceptable := (← report).flags.acceptable
      feasible := outcome.feasible
      atBound := outcome.atBound
    }
  improveBound task.settings
  let schedule := escalation.schedule.move seen.step
  if seen.step = .tightenGap then
    askSolver (Solver.forward .gapTolerance schedule.gap)
    return { schedule := schedule, seen := seen, gapTightened := true }
  else
    return { escalation with schedule := schedule, seen := seen }

/-- Solve penalty formulations until one succeeds, or the schedule or the time has run out. -/
def escalate
    (task : SolveTask α) :
    Nat → Escalation α → SolveM σ τ α (Escalation α)
  | 0, escalation => return escalation
  | rounds + 1, escalation => do
      if escalation.succeeded || !escalation.schedule.canContinue then
        return escalation
      else if ← timeIsUp task then
        return escalation
      else
        let next ← escalateOnce task escalation
        escalate task rounds next

/-- Recover from a failure of the solver. -/
def recover
    (task : SolveTask α) :
    SolveM σ τ α Unit := do
  let _ ←
    solvePrepared task (some PenaltyRequest.violationOnly) task.start task.startSetting
  addUsage
  if provesInfeasible task.sentinel task.settings (← report) then
    settle (.infeasible .penalty)
  else
    let last ←
      escalate task Escalation.roundLimit (Escalation.start task.settings)
    if last.gapTightened then
      askSolver (Solver.forward .gapTolerance task.settings.gapTolerance)
    if last.succeeded then
      settle (.solved true)
    else
      settle .failed
      if task.explainsFailure then
        checkSlater task true

end SolveM

end SdpRelay
