import SdpRelay.Solver.Interface

namespace SdpRelay

/-!
# The Slater condition

Interior points of both sides of a problem keep a solver out of numerical
trouble. On the dual side one solve of the penalty formulation without objective
shows the largest smallest eigenvalue. On the primal side there is an interior
point unless the feasible set of the problem has a direction in which it goes on
for ever; the auxiliary problem looks for one of trace one.
-/

/-- What is known about the interior of one side of a problem. -/
inductive SlaterVerdict where
  | unknown
  /-- There is an interior point. -/
  | holds
  /-- There is no interior point. -/
  | fails
  /-- There is no point at all. -/
  | infeasible
  deriving Repr, DecidableEq

/-- The name of a verdict. -/
def SlaterVerdict.key : SlaterVerdict → String
  | unknown => "NoInfo"
  | holds => "Holds"
  | fails => "Not"
  | infeasible => "Infeasible"

/-- The verdicts for both sides. -/
structure SlaterVerdicts where
  primal : SlaterVerdict
  dual : SlaterVerdict
  deriving Repr, DecidableEq

/-- Nothing is known. -/
def SlaterVerdicts.unknown : SlaterVerdicts :=
  { primal := .unknown, dual := .unknown }

/-- What a check of the dual side found. -/
inductive DualFinding (α : Type) where
  | unchecked
  /-- The eigenvalue is positive beyond the tolerance. -/
  | interior (eigenvalue : α)
  /-- The eigenvalue is zero up to the tolerance. -/
  | boundary (eigenvalue : α)
  /-- The eigenvalue is negative. -/
  | outside (eigenvalue : α)
  /-- The eigenvalue can be made as large as one likes. -/
  | unbounded
  | infeasible
  deriving Repr, DecidableEq

namespace DualFinding

variable {α : Type} [Scalar α]

/-- The verdict of a finding. -/
def verdict : DualFinding α → SlaterVerdict
  | unchecked => .unknown
  | interior _ => .holds
  | boundary _ => .fails
  | outside _ => .infeasible
  | unbounded => .holds
  | infeasible => .fails

/-- The sentence that describes a finding. -/
def message
    (text : NumberText α) :
    DualFinding α → String
  | unchecked => "dual Slater condition could not be checked"
  | interior eigenvalue =>
      "dual Slater condition holds (smallest eigenvalue " ++
        text.scientific eigenvalue ++ ")"
  | boundary eigenvalue =>
      "dual Slater condition does not hold (smallest eigenvalue " ++
        text.scientific eigenvalue ++ "), expecting numerical trouble"
  | outside eigenvalue =>
      "dual Slater condition does not hold (smallest eigenvalue " ++
        text.scientific eigenvalue ++ "; problem infeasible)"
  | unbounded => "dual Slater condition holds (problem unbounded)"
  | infeasible => "dual Slater condition does not hold (problem infeasible)"

/-- Read the answer to the penalty formulation, whose value is minus the eigenvalue. -/
def ofReport
    (tolerance : α)
    (report : SolverReport α) :
    DualFinding α :=
  if report.flags.optimal then
    match report.objective with
    | .ok value =>
        if value < -tolerance then interior (-value)
        else if value < tolerance then boundary (-value)
        else outside (-value)
    | .error _ => unchecked
  else if report.flags.dualUnbounded then
    unbounded
  else if report.flags.dualInfeasible then
    infeasible
  else
    unchecked

end DualFinding

/-- What a check of the primal side found. -/
inductive PrimalFinding where
  | unchecked
  /-- All variables have finite bounds, which leaves no direction. -/
  | bounded
  /-- There is a direction, and none lowers the objective. -/
  | degenerate
  /-- The auxiliary problem has a negative value. -/
  | interior
  /-- The auxiliary problem is unbounded. -/
  | unbounded
  /-- The auxiliary problem is infeasible, which leaves no direction. -/
  | excluded
  deriving Repr, DecidableEq

namespace PrimalFinding

variable {α : Type} [Scalar α]

/-- The verdict of a finding. -/
def verdict : PrimalFinding → SlaterVerdict
  | unchecked => .unknown
  | bounded => .holds
  | degenerate => .fails
  | interior => .holds
  | unbounded => .fails
  | excluded => .holds

/-- The sentence that describes a finding. -/
def message : PrimalFinding → String
  | unchecked => "primal Slater condition could not be checked"
  | bounded => "primal Slater condition holds (all variables bounded)"
  | degenerate => "primal Slater condition does not hold"
  | interior => "primal Slater condition holds"
  | unbounded => "primal Slater condition does not hold (problem unbounded)"
  | excluded =>
      "primal Slater condition holds (auxiliary problem infeasible)"

/-- All variables have finite bounds. -/
def allBounded
    (sentinel : α)
    (lower upper : List α) :
    Bool :=
  (lower.zip upper).all fun (low, high) =>
    !beyondSentinel sentinel low && !beyondSentinel sentinel high

/-- Zero in place of a finite limit; an infinite one stays. -/
def homogenised (sentinel x : α) : α :=
  if beyondSentinel sentinel x then x else 0

/-- The trace of the coefficient matrices of a variable in all blocks. -/
def traceOf
    (blocks : List (Block α))
    (var : Nat) :
    α :=
  blocks.foldl
    (fun total block =>
      block.terms.foldl
        (fun total term =>
          if term.var = var then
            term.entries.entries.foldl
              (fun total entry =>
                if entry.row = entry.col then total + entry.value else total)
              total
          else
            total)
        total)
    0

/-- The row that asks for a direction of trace at least one, if any free variable has a trace. -/
def traceRow?
    (sentinel epsilon : α)
    (store : Store α)
    (work : Workspace α) :
    Option (LinearRow α) :=
  let terms :=
    ((List.range store.variableCount).map fun var =>
      (var, traceOf store.blocks var)).filter fun (var, coef) =>
        !decide (work.Fixed var) && decide (epsilon < Scalar.abs coef)
  if terms.isEmpty then
    none
  else
    some
      {
        left := 1
        right := sentinel
        vars := terms.map Prod.fst
        coefs := terms.map Prod.snd
      }

/-- The kept rows with homogenised sides, and the trace row behind them. -/
def auxiliaryRows
    (sentinel epsilon : α)
    (store : Store α)
    (work : Workspace α) :
    RowTable α :=
  let kept := work.rows.table
  let table :=
    {
      kept with
      lefts := kept.lefts.map (homogenised sentinel)
      rights := kept.rights.map (homogenised sentinel)
    }
  match traceRow? sentinel epsilon store work with
  | some row => table.push row
  | none => table

/-- The auxiliary problem: directions of the feasible set. -/
def auxiliaryProblem
    (sentinel epsilon : α)
    (store : Store α)
    (work : Workspace α) :
    PreparedProblem α :=
  let problem := PreparedProblem.ofWorkspace store work
  {
    problem with
    lower := problem.lower.map (homogenised sentinel)
    upper := problem.upper.map (homogenised sentinel)
    blocks :=
      problem.blocks.map fun block =>
        { block with constant := Triplets.empty }
    rows := auxiliaryRows sentinel epsilon store work
  }

/-- Read the answer to the auxiliary problem. -/
def ofReport
    (tolerance : α)
    (report : SolverReport α) :
    PrimalFinding :=
  if report.flags.optimal then
    match report.objective with
    | .ok value => if -tolerance < value then degenerate else interior
    | .error _ => unchecked
  else if report.flags.dualUnbounded then
    unbounded
  else if report.flags.primalUnbounded then
    excluded
  else
    unchecked

end PrimalFinding

/-- The three ways in which the verdicts of both sides are summed up. -/
inductive SlaterOutcome where
  | withSlater
  | withoutSlater
  | infeasible
  deriving Repr, DecidableEq

/-- The second half of the name of a class. -/
def SlaterOutcome.key : SlaterOutcome → String
  | withSlater => "WSlater"
  | withoutSlater => "NoSlater"
  | infeasible => "Infeasible"

/--
Sum up the verdicts. An infeasible dual side decides alone if the problem was
not solved, and otherwise unless the primal side is infeasible too.
-/
def SlaterVerdicts.outcome?
    (verdicts : SlaterVerdicts)
    (unsolved : Bool) :
    Option SlaterOutcome :=
  if unsolved && verdicts.dual == .infeasible then
    some .infeasible
  else
    match verdicts.primal, verdicts.dual with
    | .infeasible, _ => none
    | _, .infeasible => some .infeasible
    | .fails, _ => some .withoutSlater
    | _, .fails => some .withoutSlater
    | .holds, .holds => some .withSlater
    | _, _ => none

/-- The way in which a problem was solved, or not. -/
inductive SolvePath where
  | stable
  | unstable
  | penalty
  /-- Not solved, but with a bound on the objective. -/
  | bounded
  | unsolved
  deriving Repr, DecidableEq

/-- The first half of the name of a class. -/
def SolvePath.key : SolvePath → String
  | stable => "Stable"
  | unstable => "Unstable"
  | penalty => "Penalty"
  | bounded => "Bounded"
  | unsolved => "Unsolved"

/-- The class of a solve in statistics: its path and its summed up verdicts. -/
structure SlaterClass where
  path : SolvePath
  outcome : SlaterOutcome
  deriving Repr, DecidableEq

/-- The name of a class. -/
def SlaterClass.key (solveClass : SlaterClass) : String :=
  solveClass.path.key ++ solveClass.outcome.key

end SdpRelay
