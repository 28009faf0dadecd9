import SdpRelay.Solver.Interface

namespace SdpRelay

/-!
# Scripted solvers

A solver that does not solve anything: it answers requests from a script, and it
remembers what it was asked. With it every course of a solve can be brought
about and looked at.
-/

/-- One prepared answer. -/
structure ScriptedAnswer (α : Type) where
  solved : Bool
  flags : StatusFlags
  outcome : PenaltyOutcome
  objective : Option α
  values : List α
  preoptimal : Option (WarmStart α)
  lowerMultipliers : List α
  upperMultipliers : List α
  leftMultipliers : List α
  rightMultipliers : List α
  nonzeros : List Nat
  primalMatrices : List (Triplets α)
  primalBlocks : List (SquareMatrix α)
  largestEntry : α
  setting : SolverSetting
  time : α
  iterations : UInt32
  calls : UInt32
  /-- The request fails in this way. -/
  fault : Option SolverFault
  deriving Repr, DecidableEq

/-- An assignment of a parameter that a solver accepted. -/
inductive Assignment (α : Type) where
  | real (parameter : Parameter) (value : α)
  | integer (parameter : Parameter) (value : Int32)
  deriving Repr, DecidableEq

/-- A solver that follows a script. -/
structure ScriptedSolver (α : Type) where
  /-- Answers to the next requests. -/
  script : List (ScriptedAnswer α)
  /-- The answer once the script is used up. -/
  fallback : ScriptedAnswer α
  /-- Parameters that can be assigned. -/
  supported : List Parameter
  /-- Parameters whose assignment fails. -/
  failing : List Parameter
  needsPrimal : Bool
  /-- The answer in force, with the problem it was given for. -/
  current : Option (ScriptedAnswer α × PreparedProblem α)
  reals : List (Parameter × α)
  integers : List (Parameter × Int32)
  counter : Nat
  /-- All requests, the last one first. -/
  requests : List (SolveRequest α)
  /-- All accepted assignments, the last one first. -/
  assignments : List (Assignment α)
  deriving Repr, DecidableEq

namespace ScriptedSolver

variable {α : Type} [Scalar α]

/-- A list with zeros behind it up to a length. -/
def padded
    (values : List α)
    (length : Nat) :
    List α :=
  values ++ List.replicate (length - values.length) 0

/-- What an answer says about the problem it was given for. -/
def reportOf
    (answer : ScriptedAnswer α)
    (problem : PreparedProblem α) :
    SolverReport α :=
  let objective : Except SolverFault α :=
    match answer.objective with
    | some value => .ok value
    | none => .error (.failed "no objective value")
  {
    solved := answer.solved
    flags := answer.flags
    feasibility :=
      .ok (answer.flags.primalFeasible, answer.flags.dualFeasible)
    objective := objective
    dualSolution := objective.map fun value => (value, answer.values)
    preoptimal := .ok answer.preoptimal
    boundMultipliers :=
      .ok (padded answer.lowerMultipliers problem.variableCount,
        padded answer.upperMultipliers problem.variableCount)
    sideMultipliers :=
      .ok (padded answer.leftMultipliers problem.rows.rowCount,
        padded answer.rightMultipliers problem.rows.rowCount)
    nonzeros := .ok answer.nonzeros
    primalMatrices := .ok answer.primalMatrices
    primalBlocks := .ok answer.primalBlocks
    largestEntry := answer.largestEntry
    time := answer.time
    iterations := answer.iterations
    calls := answer.calls
    setting := answer.setting
  }

/-- The report of the answer in force. -/
def report (solver : ScriptedSolver α) : SolverReport α :=
  match solver.current with
  | none => SolverReport.refusing (-2) (.failed "nothing solved")
  | some (answer, problem) => reportOf answer problem

/-- Note the request, and give the next answer. -/
def solve
    (request : SolveRequest α) :
    EStateM SolverFault (ScriptedSolver α) PenaltyOutcome :=
  fun solver =>
    let answer := solver.script.headD solver.fallback
    let next :=
      {
        solver with
        script := solver.script.tail
        current := some (answer, request.problem)
        requests := request :: solver.requests
      }
    match answer.fault with
    | some fault => .error fault next
    | none => .ok answer.outcome next

/-- Whether a parameter can be assigned. -/
def checkAssignable
    (solver : ScriptedSolver α)
    (parameter : Parameter) :
    Except SolverFault Unit :=
  if parameter ∈ solver.failing then
    .error (.failed ("cannot set " ++ parameter.key))
  else if parameter ∈ solver.supported then
    .ok ()
  else
    .error .parameterUnknown

/-- Change the solver if a parameter can be assigned. -/
def assign
    (parameter : Parameter)
    (change : ScriptedSolver α → ScriptedSolver α) :
    EStateM SolverFault (ScriptedSolver α) Unit :=
  fun solver =>
    match solver.checkAssignable parameter with
    | .ok () => .ok () (change solver)
    | .error fault => .error fault solver

/-- The value kept for a parameter. -/
def kept
    {β : Type}
    (values : List (Parameter × β))
    (parameter : Parameter) :
    Except SolverFault β :=
  match values.lookup parameter with
  | some value => .ok value
  | none => .error .parameterUnknown

/-- Keep a real value. -/
def keepReal
    (parameter : Parameter)
    (value : α)
    (solver : ScriptedSolver α) :
    ScriptedSolver α :=
  { solver with reals := (parameter, value) :: solver.reals }

/-- Keep an integral value. -/
def keepInteger
    (parameter : Parameter)
    (value : Int32)
    (solver : ScriptedSolver α) :
    ScriptedSolver α :=
  { solver with integers := (parameter, value) :: solver.integers }

/-- Remember an assignment. -/
def remember
    (assignment : Assignment α)
    (solver : ScriptedSolver α) :
    ScriptedSolver α :=
  { solver with assignments := assignment :: solver.assignments }

/-- Start to remember requests and assignments anew. -/
def forget (solver : ScriptedSolver α) : ScriptedSolver α :=
  { solver with requests := [], assignments := [] }

instance : Solver (ScriptedSolver α) α where
  name := fun _ => "mock"
  description := fun _ => "scripted test solver"
  defaultPenaltyIncreases := fun _ => 8
  warmStartNeedsPrimal := needsPrimal
  countProblem := fun solver => { solver with counter := solver.counter + 1 }
  resetCount := fun solver => { solver with counter := 0 }
  solve := solve
  report := report
  getReal := fun solver parameter => kept solver.reals parameter
  setReal := fun parameter value =>
    assign parameter fun solver =>
      (solver.keepReal parameter value).remember (.real parameter value)
  getInteger := fun solver parameter => kept solver.integers parameter
  setInteger := fun parameter value =>
    assign parameter fun solver =>
      (solver.keepInteger parameter value).remember (.integer parameter value)
  guessScaling := fun largest =>
    assign .lambdaStar (keepReal .lambdaStar largest)
  suggestPenalty := fun _ coefficient => .ok (10.0 * coefficient)
  suggestMaxPenalty := fun _ penalty => .ok (1000.0 * penalty)

end ScriptedSolver

end SdpRelay
