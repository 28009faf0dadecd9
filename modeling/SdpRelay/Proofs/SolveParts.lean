import Mathlib.Tactic.Common
import SdpRelay.Solve.Pipeline

namespace SdpRelay

/-!
# Parts of a solve

The longer functions of a solve, cut at the places where one question is settled
and the next one begins.  Each equation puts such a function together from its
parts; everything that is proved about a solve goes by these parts.
-/

namespace SolveM

variable {σ τ α : Type} [Scalar α]

/-- The path for one free variable, from what presolve left of the problem. -/
def oneVariableStep
    [OneVariableSolver τ α]
    (task : SolveTask α)
    (fixedObjective : α)
    (work : Workspace α) :
    SolveM σ τ α (Option (OneVariableResult α)) :=
  match work.activeVariables, task.store.blocks with
  | [var], [] => return task.boundedResult? work fixedObjective var
  | [var], [block] => do
      let solution ←
        askOneVariable task (task.oneVariableProblem work block var)
      return solution.map (task.resultOf fixedObjective var)
  | _, _ => return none

theorem solveOneVariable_eq
    [OneVariableSolver τ α]
    (task : SolveTask α)
    (fixedObjective : α)
    (run : SolveRun σ τ α) :
    solveOneVariable task fixedObjective run =
      oneVariableStep task fixedObjective run.work run :=
  rfl

variable [Solver σ α]

/-- Give the solver its gap tolerance back if an escalation changed it. -/
def restoreGap
    (task : SolveTask α)
    (last : Escalation α) :
    SolveM σ τ α Unit :=
  if last.gapTightened then
    askSolver (Solver.forward .gapTolerance task.settings.gapTolerance)
  else
    pure ()

/-- Settle a recovery after its escalation. -/
def settleRecovery
    (task : SolveTask α)
    (last : Escalation α) :
    SolveM σ τ α Unit :=
  if last.succeeded then
    settle (.solved true)
  else do
    settle .failed
    if task.explainsFailure then
      checkSlater task true

theorem recover_eq (task : SolveTask α) :
    (recover task : SolveM σ τ α Unit) =
      (do
        let _ ←
          solvePrepared task (some PenaltyRequest.violationOnly) task.start
            task.startSetting
        addUsage
        if provesInfeasible task.sentinel task.settings (← report) then
          settle (.infeasible .penalty)
        else
          let last ←
            escalate task Escalation.roundLimit (Escalation.start task.settings)
          restoreGap task last
          settleRecovery task last) := by
  unfold recover restoreGap
  refine bind_congr fun _ => bind_congr fun _ => bind_congr fun seen => ?_
  congr 1
  refine bind_congr fun last => ?_
  by_cases tightened : last.gapTightened = true
  · simp only [tightened, ↓reduceIte]
    rfl
  · simp only [tightened]
    rfl

/-- Check the Slater condition before the solve if that is asked for. -/
def openWithSlater
    (task : SolveTask α) :
    SolveM σ τ α Unit :=
  if task.settings.slaterCheck ≠ .off then
    timed "slater" (checkSlater task false)
  else
    pure ()

/-- Accept what the solver says about the problem, or recover from a failure in time. -/
def acceptOrRecover
    (task : SolveTask α) :
    SolveM σ τ α Unit := do
  if (← report).flags.acceptable then
    return
  else if ← timeIsUp task then
    return
  else
    timed "penalty" (recover task)

/-- Solve the prepared problem with the solver. -/
def solveBySolver
    (task : SolveTask α) :
    SolveM σ τ α Unit := do
  openWithSlater task
  timed "backend" (solveDirectly task)
  settle (.solved false)
  acceptOrRecover task

theorem solveUndecided_eq
    [OneVariableSolver τ α]
    (task : SolveTask α)
    (fixedObjective : α) :
    (solveUndecided task fixedObjective : SolveM σ τ α Unit) =
      (do
        match ← timed "onevar" (solveOneVariable task fixedObjective) with
        | some result => settleOneVariable result
        | none =>
            timed "preprocess" (compact task)
            solveBySolver task) := by
  unfold solveUndecided solveBySolver openWithSlater
  refine bind_congr fun result => ?_
  cases result with
  | some result =>
      rfl
  | none =>
      refine bind_congr fun _ => ?_
      by_cases isOff : task.settings.slaterCheck = .off
      · rw [if_neg (not_not.mpr isOff), if_neg (not_not.mpr isOff)]
        rfl
      · rw [if_pos isOff, if_pos isOff]
        rfl

end SolveM

end SdpRelay
