namespace SdpRelay

/-!
# Parameters

The parameters that a session can be asked for by name, their kinds, and who
keeps them.
-/

/-- The version of the interface. -/
def version : String := "0.1.0"

/-- A named parameter. -/
inductive Parameter where
  | epsilon
  | gapTolerance
  | feasTolerance
  | solverFeasTolerance
  | objectiveLimit
  | penalty
  | maxPenalty
  | lambdaStar
  | warmStartGap
  | infeasibilityFactor
  | solverOutput
  | threads
  | presolving
  | scaling
  | objectiveScaling
  | slaterCheck
  | penaltyIncreases
  deriving Repr, DecidableEq

/-- Who keeps a parameter. -/
inductive ParameterScope where
  /-- The session alone. -/
  | session
  /-- The session, which passes it on to the solver. -/
  | shared
  /-- The solver alone. -/
  | solver
  deriving Repr, DecidableEq

namespace Parameter

/-- All parameters, those with real values first. -/
def all : List Parameter :=
  [epsilon, gapTolerance, feasTolerance, solverFeasTolerance, objectiveLimit,
    penalty, maxPenalty, lambdaStar, warmStartGap, infeasibilityFactor,
    solverOutput, threads, presolving, scaling, objectiveScaling, slaterCheck,
    penaltyIncreases]

/-- The name of a parameter in messages. -/
def key : Parameter → String
  | epsilon => "Epsilon"
  | gapTolerance => "GapTol"
  | feasTolerance => "FeasTol"
  | solverFeasTolerance => "SdpSolverFeasTol"
  | objectiveLimit => "ObjLimit"
  | penalty => "PenaltyParam"
  | maxPenalty => "MaxPenaltyParam"
  | lambdaStar => "LambdaStar"
  | warmStartGap => "WarmstartPoGap"
  | infeasibilityFactor => "PenInfeasAdjust"
  | solverOutput => "SdpInfo"
  | threads => "NThreads"
  | presolving => "UsePresolving"
  | scaling => "UseScaling"
  | objectiveScaling => "ScaleObj"
  | slaterCheck => "SlaterCheck"
  | penaltyIncreases => "NPenaltyIncr"

/-- The parameter with a given name. -/
def ofKey? (name : String) : Option Parameter :=
  all.find? fun parameter => parameter.key == name

/-- The parameter has real values; all others have integral ones. -/
def isReal : Parameter → Bool
  | solverOutput => false
  | threads => false
  | presolving => false
  | scaling => false
  | objectiveScaling => false
  | slaterCheck => false
  | penaltyIncreases => false
  | _ => true

/-- Who keeps a parameter. -/
def scope : Parameter → ParameterScope
  | epsilon => .shared
  | gapTolerance => .shared
  | feasTolerance => .shared
  | penalty => .shared
  | maxPenalty => .session
  | infeasibilityFactor => .session
  | slaterCheck => .session
  | penaltyIncreases => .session
  | _ => .solver

end Parameter

end SdpRelay
