import SdpRelay.Session.Basic

namespace SdpRelay

/-!
# Results of a session

Questions about the last solve. Where the solver decided, the answers are the
solver's; otherwise they follow from the verdict and from what presolve left in
the workspace. Questions for values fail as long as there is no result.
-/

namespace Verdict

variable {α : Type}

/-- What is known where no variable could be moved to become feasible. -/
def infeasibleFlags (primalKnown : Bool) : StatusFlags :=
  {
    StatusFlags.unknown 0 with
    feasibilityKnown := true
    primalUnbounded := primalKnown
    primalFeasible := primalKnown
    dualInfeasible := true
    converged := true
    acceptable := true
  }

/-- What is known where a feasible optimum was found. -/
def optimalFlags : StatusFlags :=
  {
    StatusFlags.unknown 0 with
    feasibilityKnown := true
    primalFeasible := true
    dualFeasible := true
    converged := true
    optimal := true
    acceptable := true
  }

end Verdict

namespace Session

variable {σ τ α : Type} [Scalar α]

/-- The last solve had a result. -/
def wasSolved (session : Session σ τ α) : Bool :=
  session.run.verdict.isSolved

/-- The last solve had a result without the penalty formulation. -/
def solvedWithoutPenalty (session : Session σ τ α) : Bool :=
  session.run.verdict.isSolved && !session.run.verdict.usesPenalty

/-- The working lower bounds, with the value of one variable put in. -/
def valuesWith
    (session : Session σ τ α)
    (result : OneVariableResult α) :
    List α :=
  session.run.work.bounds.lower.set result.var result.value

/-- A list of zeros with the value of one variable put in. -/
def multiplierOf
    (session : Session σ τ α)
    (var : Nat)
    (value : α) :
    List α :=
  (List.replicate session.store.variableCount 0).set var value

/-- One zero for every variable. -/
def noMultipliers (session : Session σ τ α) : List α :=
  List.replicate session.store.variableCount 0

/-- The bound multipliers of a result for one free variable. -/
def oneVariableMultipliers
    (session : Session σ τ α)
    (result : OneVariableResult α) :
    List α × List α :=
  let tolerance := session.settings.feasTolerance
  let objective := session.store.objective.getD result.var 0
  let lower := session.run.work.bounds.lowerAt result.var
  let upper := session.run.work.bounds.upperAt result.var
  let none := session.noMultipliers
  if result.optimal then
    if 0 ≤ objective ∧ Scalar.abs (result.value - lower) < tolerance then
      (session.multiplierOf result.var objective, none)
    else if objective < 0 ∧
        Scalar.abs (result.value - upper) < tolerance then
      (none, session.multiplierOf result.var (-objective))
    else
      (none, none)
  else if tolerance < result.slope then
    (none, session.multiplierOf result.var result.slope)
  else if result.slope < -tolerance then
    (session.multiplierOf result.var (-result.slope), none)
  else
    (none, none)

/-- Put the multiplier of a bound at the side of the row that the bound came from. -/
def creditBound
    (sides : List α × List α) :
    BoundSource × α → List α × List α
  | (.stored, _) => sides
  | (.row index .left, value) => (sides.1.set index value, sides.2)
  | (.row index .right, value) => (sides.1, sides.2.set index value)

/-- Put the multipliers of a kept row at its place among the stored rows. -/
def creditRow
    (kept : List α × List α)
    (sides : List α × List α) :
    Option Nat × Nat → List α × List α
  | (none, _) => sides
  | (some position, row) =>
      (sides.1.set row (kept.1.getD position 0),
        sides.2.set row (kept.2.getD position 0))

/--
The multipliers of all stored rows, from those of the kept rows and of the
bounds: a row that became a bound takes the multiplier of that bound.
-/
def storedSideMultipliers
    (session : Session σ τ α)
    (kept bounds : List α × List α) :
    List α × List α :=
  let work := session.run.work
  let zeros := List.replicate session.store.rows.rowCount 0
  let sources :=
    work.bounds.lowerSource.zip bounds.1 ++
      work.bounds.upperSource.zip bounds.2
  work.rows.positions.zipIdx.foldl (creditRow kept)
    (sources.foldl creditBound (zeros, zeros))

/-- The matrices of a problem in which all variables are fixed, if eigenvectors were kept. -/
def fixedBlocks?
    (session : Session σ τ α)
    (infeasible : Bool) :
    Option (List (SquareMatrix α)) :=
  let vectors := session.run.work.fixedVectors
  if vectors.any Option.isSome then
    some (session.store.blocks.zipIdx.map fun (block, b) =>
      match vectors.getD b none with
      | some vector =>
          if infeasible then
            SquareMatrix.rankOne vector 1
          else
            SquareMatrix.zeros block.size
      | none => SquareMatrix.zeros block.size)
  else
    none

/-- The matrix of a result for one free variable, scaled to match the objective. -/
def oneVariableBlocks
    (session : Session σ τ α)
    (result : OneVariableResult α) :
    List (SquareMatrix α) :=
  match result.certificate with
  | none => []
  | some certificate =>
      let objective := session.store.objective.getD result.var 0
      let factor :=
        if result.optimal && decide
            (session.settings.feasTolerance < result.slope) then
          objective / result.slope
        else
          1
      [SquareMatrix.rankOne certificate factor]

variable [Solver σ α]

/-- What the solver says about its last solve. -/
def solverReport (session : Session σ τ α) : SolverReport α :=
  Solver.report session.run.solver

/-- What is known about the last solve. -/
def flags (session : Session σ τ α) : StatusFlags :=
  match session.run.verdict with
  | .unsolved => StatusFlags.unknown (-1)
  | .failed => StatusFlags.unknown (-1)
  | .infeasible proof => Verdict.infeasibleFlags (proof == .fixedPoint)
  | .allFixed => Verdict.optimalFlags
  | .oneVariable result =>
      if result.optimal then
        Verdict.optimalFlags
      else
        Verdict.infeasibleFlags true
  | .solved _ => session.solverReport.flags

/-- An answer of the solver. -/
def fromSolver
    {β : Type} :
    Except SolverFault β → Except (Fault α) β :=
  Except.mapError .solver

/-- Whether the answer is feasible, on the primal and on the dual side. -/
def feasibility
    (session : Session σ τ α) :
    Except (Fault α) (Bool × Bool) :=
  match session.run.verdict with
  | .unsolved => .error .notSolved
  | .failed => .error .notSolved
  | .solved _ => fromSolver session.solverReport.feasibility
  | _ => .ok (session.flags.primalFeasible, session.flags.dualFeasible)

/-- The objective value; infinite if the problem is infeasible. -/
def objectiveValue
    (session : Session σ τ α) :
    Except (Fault α) α :=
  match session.run.verdict with
  | .unsolved => .error .notSolved
  | .failed => .error .notSolved
  | .infeasible _ => .ok session.sentinel
  | .allFixed => .ok (session.run.work.fixedObjective session.store)
  | .oneVariable result => .ok result.objectiveValue
  | .solved _ => fromSolver session.solverReport.objective

/-- A bound on the objective value from below. -/
def lowerBound
    (session : Session σ τ α) :
    Except (Fault α) α :=
  if session.run.verdict.isSolved then
    session.objectiveValue
  else if session.run.verdict.usesPenalty then
    .ok session.run.bestBound
  else
    .ok (-session.sentinel)

/-- The objective value and the values of all variables. -/
def dualSolution
    (session : Session σ τ α) :
    Except (Fault α) (α × List α) := do
  let objective ← session.objectiveValue
  match session.run.verdict with
  | .oneVariable result => return (objective, session.valuesWith result)
  | .solved _ => fromSolver session.solverReport.dualSolution
  | _ => return (objective, session.run.work.bounds.lower)

/-- A starting point for later solves. -/
def preoptimal
    (session : Session σ τ α) :
    Except (Fault α) (Option (WarmStart α)) :=
  match session.run.verdict with
  | .unsolved => .error .notSolved
  | .failed => .error .notSolved
  | .solved _ => fromSolver session.solverReport.preoptimal
  | _ => .ok none

/-- An answer of the solver, unless the primal side is infeasible. -/
def unlessPrimalInfeasible
    {β : Type}
    (session : Session σ τ α)
    (answer : Except (Fault α) β) :
    Except (Fault α) (Option β) :=
  if session.solverReport.flags.primalInfeasible then
    .ok none
  else
    answer.map some

/-- The multipliers of the lower and of the upper bounds, if the problem is feasible. -/
def boundMultipliers
    (session : Session σ τ α) :
    Except (Fault α) (Option (List α × List α)) :=
  match session.run.verdict with
  | .unsolved => .error .notSolved
  | .failed => .error .notSolved
  | .infeasible _ => .ok none
  | .allFixed => .ok (some (session.noMultipliers, session.noMultipliers))
  | .oneVariable result =>
      .ok (some (session.oneVariableMultipliers result))
  | .solved _ =>
      session.unlessPrimalInfeasible
        (fromSolver session.solverReport.boundMultipliers)

/-- The multipliers of the left and of the right sides of all rows, if the problem is feasible. -/
def sideMultipliers
    (session : Session σ τ α) :
    Except (Fault α) (Option (List α × List α)) :=
  let zeros : List α := List.replicate session.store.rows.rowCount 0
  match session.run.verdict with
  | .unsolved => .error .notSolved
  | .failed => .error .notSolved
  | .infeasible _ => .ok none
  | .allFixed => .ok (some (zeros, zeros))
  | .oneVariable _ => .ok (some (zeros, zeros))
  | .solved _ =>
      session.unlessPrimalInfeasible (do
        let kept ← fromSolver session.solverReport.sideMultipliers
        let bounds ← fromSolver session.solverReport.boundMultipliers
        return session.storedSideMultipliers kept bounds)

/-- An answer that only the solver can give. -/
def solverOnly
    {β : Type}
    (session : Session σ τ α)
    (answer : SolverReport α → Except SolverFault β) :
    Except (Fault α) (Option β) :=
  match session.run.verdict with
  | .unsolved => .error .notSolved
  | .failed => .error .notSolved
  | .solved _ => (fromSolver (answer session.solverReport)).map some
  | _ => .ok none

/-- The number of entries of the primal matrix of each block, the rows being the last one. -/
def primalNonzeros
    (session : Session σ τ α) :
    Except (Fault α) (Option (List Nat)) :=
  session.solverOnly SolverReport.nonzeros

/-- The primal matrix of each block, the rows being the last one. -/
def primalMatrices
    (session : Session σ τ α) :
    Except (Fault α) (Option (List (Triplets α))) :=
  session.solverOnly SolverReport.primalMatrices

/-- The dense primal matrix of each block. -/
def primalBlocks
    (session : Session σ τ α) :
    Except (Fault α) (Option (List (SquareMatrix α))) :=
  match session.run.verdict with
  | .unsolved => .error .notSolved
  | .failed => .error .notSolved
  | .infeasible .fixedPoint => .ok (session.fixedBlocks? true)
  | .infeasible _ => .ok none
  | .allFixed => .ok (session.fixedBlocks? false)
  | .oneVariable result => .ok (some (session.oneVariableBlocks result))
  | .solved _ =>
      session.unlessPrimalInfeasible
        (fromSolver session.solverReport.primalBlocks)

/-- The largest entry of the primal matrices. -/
def largestPrimalEntry (session : Session σ τ α) : α :=
  session.solverReport.largestEntry

/-- The numerical effort that the last solve took. -/
def settingUsed (session : Session σ τ α) : SolverSetting :=
  match session.run.verdict with
  | .solved false => session.solverReport.setting
  | .solved true => .penalty
  | .infeasible .penalty => .penalty
  | _ => .unsolved

/-- The path of the last solve, if it is one that the statistics tell apart. -/
def solvePath? (session : Session σ τ α) : Option SolvePath :=
  match session.run.verdict with
  | .unsolved | .failed =>
      if -session.sentinel < session.run.bestBound then
        some .bounded
      else
        some .unsolved
  | .infeasible .penalty => some .penalty
  | .solved true => some .penalty
  | .solved false =>
      match session.solverReport.setting with
      | .fast => some .stable
      | .medium | .stable => some .unstable
      | _ => none
  | _ => none

/-- The class of the last solve in statistics. -/
def slaterClass?
    (session : Session σ τ α) :
    Option SlaterClass := do
  let path ← session.solvePath?
  let outcome ←
    session.run.slater.outcome? (!session.run.verdict.isSolved)
  return { path := path, outcome := outcome }

end Session

end SdpRelay
