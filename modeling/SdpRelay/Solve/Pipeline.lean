import SdpRelay.Solve.Recovery
import SdpRelay.Solver.OneVariable

namespace SdpRelay

/-!
# The course of a solve

Bounds that contradict each other end a solve at once. Otherwise presolve may
decide it, then the method for one free variable, and what is left goes to the
solver, with the penalty formulation as a last resort.
-/

namespace SolveTask

variable {α : Type} [Scalar α]

/-- Some variable has an upper bound below its lower bound by more than the tolerance. -/
def boundsContradict (task : SolveTask α) : Bool :=
  (task.store.lower.zip task.store.upper).any fun (lower, upper) =>
    decide (upper < lower - task.settings.feasTolerance)

/-- The coefficient matrix that a block lists first for a variable. -/
def firstMatrix
    (block : Block α)
    (var : Nat) :
    Triplets α :=
  match block.terms.find? (fun term => term.var == var) with
  | some term => term.entries
  | none => Triplets.empty

/-- The problem in one free variable that is left of a problem with one block. -/
def oneVariableProblem
    (task : SolveTask α)
    (work : Workspace α)
    (block : Block α)
    (var : Nat) :
    OneVariableProblem α :=
  {
    objective := task.store.objective.getD var 0
    lower := work.bounds.lowerAt var
    upper := work.bounds.upperAt var
    size := block.size
    constant := work.constants.getD 0 Triplets.empty
    matrix := firstMatrix block var
    feasTolerance := task.settings.feasTolerance
    epsilon := task.settings.epsilon
  }

/-- The result for one free variable between finite bounds and no block: the favoured bound. -/
def boundedResult?
    (task : SolveTask α)
    (work : Workspace α)
    (fixedObjective : α)
    (var : Nat) :
    Option (OneVariableResult α) :=
  let objective := task.store.objective.getD var 0
  let lower := work.bounds.lowerAt var
  let upper := work.bounds.upperAt var
  if beyondSentinel task.sentinel lower ||
      beyondSentinel task.sentinel upper then
    none
  else
    let value := if 0 ≤ objective then lower else upper
    some
      {
        optimal := true
        var := var
        objectiveValue := objective * value + fixedObjective
        value := value
        certificate := none
        slope := 0
      }

/-- The result that a solution for one free variable stands for. -/
def resultOf
    (task : SolveTask α)
    (fixedObjective : α)
    (var : Nat)
    (solution : OneVariableSolution α) :
    OneVariableResult α :=
  let infeasible := solution.isInfeasible task.sentinel
  {
    optimal := !infeasible
    var := var
    objectiveValue :=
      if infeasible then
        task.sentinel
      else
        solution.objectiveValue + fixedObjective
    value := solution.value
    certificate := some solution.certificate
    slope := solution.slope
  }

end SolveTask

namespace SolveM

variable {σ τ α : Type} [Scalar α]

/-- Presolve the stored problem, as long as there is memory for the arrays. -/
def presolve
    (task : SolveTask α) :
    SolveM σ τ α (PresolveOutcome α) :=
  fun run =>
    let table := task.store.rows
    if !run.memory.grants (.bounds task.store.lower.length) then
      .error (.compaction .outOfMemory) run
    else if !run.memory.grants (.rows table.rowCount table.termCount) then
      .error (.compaction .outOfMemory)
        { run with work := run.work.reset task.store task.settings }
    else
      let (work, outcome) :=
        run.work.presolve task.store task.sentinel task.settings
      match outcome with
      | .ok (.undecided fixedObjective) =>
          if work.coversFolding task.store run.memory then
            .ok (.undecided fixedObjective) { run with work := work }
          else
            .error (.compaction .outOfMemory) { run with work := work }
      | .ok decided => .ok decided { run with work := work }
      | .error fault => .error (.eigen fault) { run with work := work }

/-- Ask the method for one free variable. -/
def askOneVariable
    [OneVariableSolver τ α]
    (task : SolveTask α)
    (problem : OneVariableProblem α) :
    SolveM σ τ α (Option (OneVariableSolution α)) :=
  fun run =>
    match OneVariableSolver.solve task.sentinel problem run.oneVariable with
    | .ok solution method =>
        .ok solution { run with oneVariable := method }
    | .error fault method =>
        .error fault { run with oneVariable := method }

/-- Solve a problem with one free variable and at most one block, unless the method gives up. -/
def solveOneVariable
    [OneVariableSolver τ α]
    (task : SolveTask α)
    (fixedObjective : α) :
    SolveM σ τ α (Option (OneVariableResult α)) := do
  let work := (← get).work
  match work.activeVariables, task.store.blocks with
  | [var], [] => return task.boundedResult? work fixedObjective var
  | [var], [block] =>
      let solution ←
        askOneVariable task (task.oneVariableProblem work block var)
      return solution.map (task.resultOf fixedObjective var)
  | _, _ => return none

/-- Find the rows and columns that the solver can do without. -/
def compact
    (task : SolveTask α) :
    SolveM σ τ α Unit :=
  fun run =>
    match run.work.compact task.store run.memory with
    | .ok work => .ok () { run with work := work }
    | .error fault => .error (.compaction fault) run

variable [Solver σ α]

/-- Settle a problem without the solver. -/
def settleDirectly
    (verdict : Verdict α)
    (count : Tally → Tally) :
    SolveM σ τ α Unit :=
  modify fun run =>
    {
      run with
      tally := count run.tally
      solver := Solver.countProblem run.solver
      verdict := verdict
    }

/-- Settle a problem that bounds or rows make infeasible. -/
def settleInfeasible : SolveM σ τ α Unit :=
  settleDirectly (.infeasible .presolve) fun tally =>
    { tally with infeasible := tally.infeasible + 1 }

/-- Settle a problem in which all variables are fixed. -/
def settleFixed (feasible : Bool) : SolveM σ τ α Unit :=
  settleDirectly
    (if feasible then .allFixed else .infeasible .fixedPoint)
    fun tally => { tally with allFixed := tally.allFixed + 1 }

/-- Settle a problem with one free variable. -/
def settleOneVariable
    (result : OneVariableResult α) :
    SolveM σ τ α Unit :=
  settleDirectly (.oneVariable result) fun tally =>
    { tally with oneVariable := tally.oneVariable + 1 }

/-- Hand the prepared problem to the solver. -/
def solveDirectly
    (task : SolveTask α) :
    SolveM σ τ α Unit := do
  let _ ← solvePrepared task none task.start task.startSetting
  addUsage

/-- Solve a problem that presolve left open. -/
def solveUndecided
    [OneVariableSolver τ α]
    (task : SolveTask α)
    (fixedObjective : α) :
    SolveM σ τ α Unit := do
  match ← timed "onevar" (solveOneVariable task fixedObjective) with
  | some result => settleOneVariable result
  | none =>
      timed "preprocess" (compact task)
      if task.settings.slaterCheck ≠ .off then
        timed "slater" (checkSlater task false)
      timed "backend" (solveDirectly task)
      settle (.solved false)
      if (← report).flags.acceptable then
        return
      else if ← timeIsUp task then
        return
      else
        timed "penalty" (recover task)

/-- Solve the stored problem. -/
def solve
    [OneVariableSolver τ α]
    (task : SolveTask α) :
    SolveM σ τ α Unit := do
  if task.boundsContradict then
    settleInfeasible
  else
    match ← timed "preprocess" (presolve task) with
    | .infeasible => settleInfeasible
    | .allFixed feasible => settleFixed feasible
    | .undecided fixedObjective => solveUndecided task fixedObjective

end SolveM

end SdpRelay
