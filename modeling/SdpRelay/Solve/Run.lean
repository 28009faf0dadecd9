import SdpRelay.Fault
import SdpRelay.Presolve.Outcome
import SdpRelay.Printer
import SdpRelay.Solve.Notice

namespace SdpRelay

/-!
# Solve runs

A solve has a task, which it only reads, and a run, which it changes. A step that
fails still leaves the run as far as it came: `SolveM` keeps the state on both
ways out.

What lies outside enters as data: the task holds one reading for each look at the
clock, and the run holds which reservations of memory are granted and what becomes
of each print.
-/

/-- What a solve is asked to do, and all that it reads. -/
structure SolveTask (α : Type) where
  sentinel : α
  store : Store α
  settings : Settings α
  problemNumber : Nat
  start : Option (WarmStart α)
  startSetting : SolverSetting
  /-- Look for an explanation if the solve fails. -/
  explainsFailure : Bool
  /-- Seconds until the solve gives up. -/
  timeLimit : α
  /-- The seconds since the start that each look at the clock shows. -/
  watch : Nat → α

/-- How many problems were decided without the solver. -/
structure Tally where
  infeasible : Nat
  allFixed : Nat
  oneVariable : Nat
  deriving Repr, DecidableEq

/-- No problem has been decided. -/
def Tally.none : Tally :=
  { infeasible := 0, allFixed := 0, oneVariable := 0 }

/-- What solves change. -/
structure SolveRun (σ τ α : Type) where
  solver : σ
  /-- The method for one free variable. -/
  oneVariable : τ
  work : Workspace α
  clock : Clock
  phases : Phases
  usage : Usage α
  tally : Tally
  verdict : Verdict α
  /-- The best bound on the objective that the penalty formulation gave. -/
  bestBound : α
  slater : SlaterVerdicts
  /-- The memory for the arrays of the solve. -/
  memory : Memory
  /-- Where notices are printed. -/
  outlet : Outlet
  /-- What has been printed, in order. -/
  notices : List (Notice α)

/-- Steps of a solve: they may fail, and they change the run even if they do. -/
abbrev SolveM (σ τ α : Type) := EStateM (Fault α) (SolveRun σ τ α)

namespace SolveRun

variable {σ τ α β : Type} [Scalar α]

/-- A run that has not solved anything yet. -/
def fresh
    (sentinel : α)
    (kind : ClockKind)
    (solver : σ)
    (oneVariable : τ) :
    SolveRun σ τ α :=
  {
    solver := solver
    oneVariable := oneVariable
    work := Workspace.empty
    clock := Clock.stopped kind
    phases := Phases.idle
    usage := Usage.none
    tally := Tally.none
    verdict := .unsolved
    bestBound := -sentinel
    slater := SlaterVerdicts.unknown
    memory := Memory.common
    outlet := Outlet.accepting
    notices := []
  }

/-- Take the last result back. -/
def withoutResult (run : SolveRun σ τ α) : SolveRun σ τ α :=
  { run with verdict := .unsolved, usage := Usage.none }

/-- Take back the last result and all that was found out about the problem. -/
def withoutFindings
    (run : SolveRun σ τ α)
    (sentinel : α) :
    SolveRun σ τ α :=
  {
    run.withoutResult with
    bestBound := -sentinel
    slater := SlaterVerdicts.unknown
  }

end SolveRun

namespace SolveM

variable {σ τ α β : Type} [Scalar α]

/-- Ask the solver of the run. -/
def askSolver
    (request : EStateM SolverFault σ β) :
    SolveM σ τ α β :=
  fun run =>
    match request run.solver with
    | .ok answer solver => .ok answer { run with solver := solver }
    | .error fault solver =>
        .error (.solver fault) { run with solver := solver }

/-- Take a step and tell whether it failed, without failing. -/
def observe
    (step : SolveM σ τ α β) :
    SolveM σ τ α (Except (Fault α) β) :=
  fun run =>
    match step run with
    | .ok answer next => .ok (.ok answer) next
    | .error fault next => .ok (.error fault) next

/-- Take a step as a named phase, which is left however the step ends. -/
def timed
    (name : String)
    (step : SolveM σ τ α β) :
    SolveM σ τ α β :=
  fun run =>
    match step { run with phases := run.phases.enter name } with
    | .ok answer next => .ok answer { next with phases := next.phases.leave }
    | .error fault next =>
        .error fault { next with phases := next.phases.leave }

/-- Look at the clock. -/
def elapsed
    (watch : Nat → α) :
    SolveM σ τ α α :=
  fun run =>
    .ok (watch run.clock.reads)
      { run with clock := { run.clock with reads := run.clock.reads + 1 } }

/-- The seconds that are left. -/
def timeLeft
    (task : SolveTask α) :
    SolveM σ τ α α := do
  return task.timeLimit - (← elapsed task.watch)

/-- No time is left. -/
def timeIsUp
    (task : SolveTask α) :
    SolveM σ τ α Bool := do
  return decide ((← timeLeft task) ≤ 0)

/-- Settle on a verdict. -/
def settle
    (verdict : Verdict α) :
    SolveM σ τ α Unit :=
  modify fun run => { run with verdict := verdict }

/-- Print a notice, unless the print target does not take it. -/
def notify
    (notice : Notice α) :
    SolveM σ τ α Unit :=
  fun run =>
    match run.outlet.refusal? with
    | none =>
        .ok ()
          {
            run with
            outlet := run.outlet.afterPrint
            notices := run.notices ++ [notice]
          }
    | some fault =>
        .error (.file fault) { run with outlet := run.outlet.afterPrint }

variable [Solver σ α]

/-- What the solver says about its last solve. -/
def report : SolveM σ τ α (SolverReport α) := do
  return Solver.report (← get).solver

/-- Count what the last solve of the solver took. -/
def addUsage : SolveM σ τ α Unit :=
  modify fun run =>
    { run with usage := run.usage.addReport (Solver.report run.solver) }

/-- Ask the solver for the prepared problem, or for a penalty formulation of it. -/
def solvePrepared
    (task : SolveTask α)
    (penalty : Option (PenaltyRequest α))
    (start : Option (WarmStart α))
    (setting : SolverSetting) :
    SolveM σ τ α PenaltyOutcome := do
  let timeLeft ← timeLeft task
  let problem := PreparedProblem.ofWorkspace task.store (← get).work
  askSolver (Solver.solve
    {
      problem := problem
      penalty := penalty
      start := start
      setting := setting
      timeLeft := timeLeft
    })

end SolveM

end SdpRelay
