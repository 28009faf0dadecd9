import SdpRelay.Session.Queries
import SdpRelay.Solve.Pipeline

namespace SdpRelay

/-!
# Solving the problem of a session

A solve starts from a session without findings, runs with the clock going, and
ends with the clock stopped and all phases left, however it ends. Failing to
solve a problem is no fault; it shows in the results.
-/

/-- How a solve is to be done. -/
structure SolveOptions (α : Type) where
  start : Option (WarmStart α)
  startSetting : SolverSetting
  /-- Look for an explanation if the solve fails. -/
  explainsFailure : Bool
  timeLimit : α
  deriving Repr, DecidableEq

namespace Session

open SessionM

variable {σ τ α : Type} [Scalar α]

/-- The task of a solve. -/
def task
    (session : Session σ τ α)
    (options : SolveOptions α)
    (watch : Nat → α) :
    SolveTask α :=
  {
    sentinel := session.sentinel
    store := session.store
    settings := session.settings
    problemNumber := session.problemNumber
    start := options.start
    startSetting := options.startSetting
    explainsFailure := options.explainsFailure
    timeLimit := options.timeLimit
    watch := watch
  }

/-- Start the clock, with the time source of the settings, and forget the phases of earlier solves. -/
def startClock : SessionM σ τ α Unit := do
  let session ← get
  let chosen ←
    liftExcept .clock
      (session.run.clock.setKind session.settings.clockKind)
  let started ← liftExcept .clock chosen.start
  modify fun session =>
    {
      session with
      run := { session.run with clock := started, phases := Phases.idle }
    }

/-- Stop the clock. -/
def stopClock : SessionM σ τ α Unit := do
  let stopped ← liftExcept .clock (← get).run.clock.stop
  modify fun session =>
    { session with run := { session.run with clock := stopped } }

variable [Solver σ α]

/-- The account of the last solve. -/
def summary (session : Session σ τ α) : Summary α :=
  {
    problemNumber := session.problemNumber
    verdict := session.run.verdict
    objective :=
      if session.run.verdict.isSolved then
        session.objectiveValue.toOption
      else
        none
    usage := session.run.usage
    phases := session.run.phases
  }

/-- Print the account of the last solve if that is asked for. -/
def printSummary : SessionM σ τ α Unit := do
  let session ← get
  if session.settings.verbose then
    onRun (SolveM.notify (.summary session.summary))

/-- Solve the stored problem, unless there is no time for it. -/
def solve
    [OneVariableSolver τ α]
    (options : SolveOptions α)
    (watch : Nat → α) :
    SessionM σ τ α Unit := do
  dropFindings
  if options.timeLimit ≤ 0 then
    return
  let session ← get
  startClock
  let result ←
    onRun (SolveM.observe
      (SolveM.timed "solve" (SolveM.solve (session.task options watch))))
  stopClock
  liftExcept id result
  printSummary
  modify fun session =>
    { session with problemNumber := session.problemNumber + 1 }

end Session

end SdpRelay
