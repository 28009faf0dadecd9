import SdpRelay.Parameter
import SdpRelay.Solver.Prepared

namespace SdpRelay

/-!
# Solvers

The interface to a solver for semidefinite programs. A solver is a state that
answers solve requests and keeps parameters; after each request its report says
what it found out. Nothing is assumed about a solver: every request and every
assignment of a parameter may fail and may change its state in any way.

A missing solver is one too: `none` refuses every request.
-/

/-- The numerical effort with which a solver reached its answer. -/
inductive SolverSetting where
  | unsolved
  | fast
  | medium
  | stable
  | penalty
  deriving Repr, DecidableEq

namespace SolverSetting

/-- The name of a setting. -/
def key : SolverSetting → String
  | unsolved => "Unsolved"
  | fast => "Fast"
  | medium => "Medium"
  | stable => "Stable"
  | penalty => "Penalty"

/-- The settings by name. -/
def names : List (String × SolverSetting) :=
  [unsolved, fast, medium, stable, penalty].map fun setting =>
    (setting.key, setting)

end SolverSetting

/-- Why a solver does not do what it is asked to. -/
inductive SolverFault where
  | notAvailable
  | parameterUnknown
  | failed (reason : String)
  deriving Repr, DecidableEq

/-- The sentence that describes a fault. -/
def SolverFault.message : SolverFault → String
  | notAvailable => "no SDP solver available"
  | parameterUnknown => "parameter not supported by the SDP solver"
  | failed reason => "SDP solver failed: " ++ reason

/-- A starting point, with one matrix per block and the rows as a last block. -/
structure WarmStart (α : Type) where
  /-- Values of the variables. -/
  values : List α
  /-- Slack matrices of the blocks. -/
  slacks : List (Triplets α)
  /-- Primal matrices. -/
  primals : List (Triplets α)
  deriving Repr, DecidableEq

/-- The penalty formulation: every block gets `r` times the identity added, at a price. -/
structure PenaltyRequest (α : Type) where
  /-- The price of one unit of `r`. -/
  penalty : α
  /-- The objective of the problem is kept; without it only `r` is minimised. -/
  withObjective : Bool
  /-- The variable `r` may not be negative. -/
  bounded : Bool
  deriving Repr, DecidableEq

/-- The penalty formulation that only asks how far the blocks are from being satisfied. -/
def PenaltyRequest.violationOnly {α : Type} [Scalar α] : PenaltyRequest α :=
  { penalty := 1, withObjective := false, bounded := false }

/-- What the answer to a penalty formulation says about the problem itself. -/
structure PenaltyOutcome where
  /-- The answer is feasible without the penalty. -/
  feasible : Bool
  /-- The penalty variable lies at its bound. -/
  atBound : Bool
  deriving Repr, DecidableEq

/-- One request to solve a prepared problem. -/
structure SolveRequest (α : Type) where
  problem : PreparedProblem α
  /-- Which penalty formulation to solve; the problem itself if there is none. -/
  penalty : Option (PenaltyRequest α)
  start : Option (WarmStart α)
  setting : SolverSetting
  /-- Seconds that are left. -/
  timeLeft : α
  deriving Repr, DecidableEq

/-- What is known about a solve without looking at its numbers. -/
structure StatusFlags where
  feasibilityKnown : Bool
  primalUnbounded : Bool
  primalInfeasible : Bool
  primalFeasible : Bool
  dualUnbounded : Bool
  dualInfeasible : Bool
  dualFeasible : Bool
  converged : Bool
  objectiveLimit : Bool
  iterationLimit : Bool
  timeLimit : Bool
  optimal : Bool
  /-- The answer is optimal, or infeasibility or unboundedness is proven. -/
  acceptable : Bool
  /-- A code that only its solver understands. -/
  code : Int32
  deriving Repr, DecidableEq

/-- Nothing is known. -/
def StatusFlags.unknown (code : Int32) : StatusFlags :=
  {
    feasibilityKnown := false
    primalUnbounded := false
    primalInfeasible := false
    primalFeasible := false
    dualUnbounded := false
    dualInfeasible := false
    dualFeasible := false
    converged := false
    objectiveLimit := false
    iterationLimit := false
    timeLimit := false
    optimal := false
    acceptable := false
    code := code
  }

/-- What a solver says about its last solve. -/
structure SolverReport (α : Type) where
  solved : Bool
  flags : StatusFlags
  /-- Whether the answer is feasible, on the primal and on the dual side. -/
  feasibility : Except SolverFault (Bool × Bool)
  objective : Except SolverFault α
  /-- The objective value and the values of the variables. -/
  dualSolution : Except SolverFault (α × List α)
  /-- An iterate from before the end that can serve as a starting point. -/
  preoptimal : Except SolverFault (Option (WarmStart α))
  /-- Multipliers of the lower and of the upper bounds. -/
  boundMultipliers : Except SolverFault (List α × List α)
  /-- Multipliers of the left and of the right sides of the rows that were handed over. -/
  sideMultipliers : Except SolverFault (List α × List α)
  nonzeros : Except SolverFault (List Nat)
  primalMatrices : Except SolverFault (List (Triplets α))
  primalBlocks : Except SolverFault (List (SquareMatrix α))
  largestEntry : α
  /-- Seconds spent. -/
  time : α
  iterations : UInt32
  calls : UInt32
  setting : SolverSetting

/-- A report in which every question for a value gets one refusal. -/
def SolverReport.refusing
    {α : Type}
    [Scalar α]
    (code : Int32)
    (fault : SolverFault) :
    SolverReport α :=
  {
    solved := false
    flags := StatusFlags.unknown code
    feasibility := .error fault
    objective := .error fault
    dualSolution := .error fault
    preoptimal := .error fault
    boundMultipliers := .error fault
    sideMultipliers := .error fault
    nonzeros := .error fault
    primalMatrices := .error fault
    primalBlocks := .error fault
    largestEntry := 0
    time := 0
    iterations := 0
    calls := 0
    setting := .unsolved
  }

/-- A solver for semidefinite programs, as a state of type `σ` over the numbers `α`. -/
class Solver (σ : Type) (α : outParam Type) where
  name : σ → String
  description : σ → String
  /-- Number of penalty increases the solver is tuned for. -/
  defaultPenaltyIncreases : σ → UInt32
  /-- A starting point is of no use without primal matrices. -/
  warmStartNeedsPrimal : σ → Bool
  /-- Note that a problem was decided without the solver. -/
  countProblem : σ → σ
  /-- Forget how many problems there were. -/
  resetCount : σ → σ
  solve : SolveRequest α → EStateM SolverFault σ PenaltyOutcome
  /-- What the last solve found out. -/
  report : σ → SolverReport α
  getReal : σ → Parameter → Except SolverFault α
  setReal : Parameter → α → EStateM SolverFault σ Unit
  getInteger : σ → Parameter → Except SolverFault Int32
  setInteger : Parameter → Int32 → EStateM SolverFault σ Unit
  /-- Choose the first scaling of the slack for the largest expected value of a variable. -/
  guessScaling : α → EStateM SolverFault σ Unit
  /-- A penalty parameter for the largest objective coefficient. -/
  suggestPenalty : σ → α → Except SolverFault α
  /-- A largest penalty parameter for a penalty parameter. -/
  suggestMaxPenalty : σ → α → Except SolverFault α

namespace Solver

variable {σ α : Type}

/-- Pass a parameter on to a solver; one that does not know the parameter just does not use it. -/
def forward
    [Solver σ α]
    (parameter : Parameter)
    (value : α) :
    EStateM SolverFault σ Unit :=
  fun solver =>
    match setReal parameter value solver with
    | .error .parameterUnknown next => .ok () next
    | result => result

/-- Apply a request to the solver behind `some`, and refuse it without one. -/
def whenPresent
    {β : Type}
    (fault : SolverFault)
    (request : EStateM SolverFault σ β) :
    EStateM SolverFault (Option σ) β
  | none => .error fault none
  | some solver =>
      match request solver with
      | .ok answer next => .ok answer (some next)
      | .error refusal next => .error refusal (some next)

/-- What is said about solves where there is no solver. -/
def missingReport [Scalar α] : SolverReport α :=
  { SolverReport.refusing (-1) .notAvailable with preoptimal := .ok none }

instance [Scalar α] [Solver σ α] : Solver (Option σ) α where
  name := fun
    | none => "none"
    | some solver => name solver
  description := fun
    | none =>
        "no SDP solver linked, only problems solved in preprocessing are handled"
    | some solver => description solver
  defaultPenaltyIncreases := fun
    | none => 8
    | some solver => defaultPenaltyIncreases solver
  warmStartNeedsPrimal := fun
    | none => false
    | some solver => warmStartNeedsPrimal solver
  countProblem := Option.map countProblem
  resetCount := Option.map resetCount
  solve := fun request => whenPresent .notAvailable (solve request)
  report := fun
    | none => missingReport
    | some solver => report solver
  getReal := fun
    | none, _ => .error .parameterUnknown
    | some solver, parameter => getReal solver parameter
  setReal := fun parameter value =>
    whenPresent .parameterUnknown (setReal parameter value)
  getInteger := fun
    | none, _ => .error .parameterUnknown
    | some solver, parameter => getInteger solver parameter
  setInteger := fun parameter value =>
    whenPresent .parameterUnknown (setInteger parameter value)
  guessScaling := fun largest =>
    whenPresent .parameterUnknown (guessScaling largest)
  suggestPenalty := fun
    | none, _ => .error .parameterUnknown
    | some solver, coefficient => suggestPenalty solver coefficient
  suggestMaxPenalty := fun
    | none, _ => .error .parameterUnknown
    | some solver, penalty => suggestMaxPenalty solver penalty

end Solver

end SdpRelay
